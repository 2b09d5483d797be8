/-
  Trees that come out of the parser.

  Whatever is read, a token holds nothing that could not be written in its place
  (`Token.Proper`): numbers are cut off without a sign, references up to their
  closing brace, names as far as their characters go.  A tree of such tokens is
  one that has a printed form, apart from the number NaN
  (`Derives.wellFormed`).

  * `Token.proper_of_mem_lex`: all tokens of a text are proper;
  * `Expr.wellFormed_parse`: so every parsed tree is well formed, and its
    functions are called by their canonical names.
-/
import ProductFormula.Proofs.Expr.Leaves
import ProductFormula.Proofs.Function.Names
import ProductFormula.Proofs.Grammar.Acceptance
import ProductFormula.Proofs.Reference.Braces

namespace ProductFormula

/-! ## Numbers -/

/-- A number that a text can stand for: NaN, or one with a clear sign. -/
def Number.IsLiteral (n : Number) : Prop := n = .nan ∨ n.Unsigned

theorem Number.unsigned_of_nearest {num den : Nat} {n : Number} (h : nearest false num den = n) :
    n.Unsigned := by
  unfold nearest at h
  split at h
  · subst h
    rfl
  · subst h
    rfl

theorem Decimal.unsigned_of_toNumber {d : Decimal} {n : Number} (h : d.toNumber false = n) :
    n.Unsigned := by
  unfold toNumber at h
  split at h
  · subst h
    rfl
  · split at h
    · split at h
      · subst h
        rfl
      · exact Number.unsigned_of_nearest h
    · dsimp only at h
      split at h
      · subst h
        rfl
      · exact Number.unsigned_of_nearest h

theorem isLiteral_of_constant? {name : String} {n : Number} (h : constant? name = some n) :
    n.IsLiteral := by
  unfold constant? at h
  split at h
  · cases h
    exact .inr rfl
  · split at h
    · cases h
      exact .inl rfl
    · split at h
      · exact .inr (Decimal.unsigned_of_toNumber (Option.some.inj h))
      · split at h
        · exact .inr (Decimal.unsigned_of_toNumber (Option.some.inj h))
        · cases h

/-! ## Tokens of a text -/

namespace Token

/-- What the token holds could be written in its place. -/
def Proper : Token → Prop
  | number n => n.Unsigned
  | name spelled => ∀ c ∈ spelled.toList, isNamePart c
  | reference referred optional => Referable referred optional
  | _ => True

theorem proper_ofReferenceText {inner : List Char} (h : '\x7d' ∉ inner) :
    (ofReferenceText inner).Proper := by
  unfold ofReferenceText
  split
  · trivial
  next text =>
    split
    · trivial
    next hne =>
      have hclosed : '\x7d' ∉ text := fun hmem => h (List.mem_cons_of_mem _ hmem)
      exact ⟨by simpa using hne, by simpa using hclosed, nofun⟩
  next hnil hcaret =>
    refine ⟨by simpa using hnil, by simpa using h, fun _ hhead => ?_⟩
    rw [String.toList_ofList] at hhead
    obtain ⟨text, rfl⟩ := List.head?_eq_some_iff.1 hhead
    exact hcaret text rfl

theorem proper_scanReference (cs : List Char) : (scanReference cs).1.Proper := by
  unfold scanReference
  split
  next text _ rest hcut =>
    exact proper_ofReferenceText (Text.eq_append_of_splitWhile_ne hcut).2
  · trivial

theorem proper_scanWord (first : Char) (cs : List Char) : (scanWord first cs).1.Proper := by
  unfold scanWord
  split
  · dsimp only
    unfold ofNumberText
    split
    · exact Decimal.unsigned_of_toNumber rfl
    · trivial
  · split
    next hstart =>
      intro c hc
      rw [String.toList_ofList] at hc
      rcases List.mem_cons.1 hc with rfl | hc
      · exact isNamePart_of_isNameStart hstart
      · exact List.mem_takeWhile_imp hc
    · trivial

theorem proper_scanThree (cs : List Char) : (scanThree cs).1.Proper := by
  unfold scanThree
  split <;> trivial

theorem proper_scanEquals (cs : List Char) : (scanEquals cs).1.Proper := by
  unfold scanEquals
  split <;> trivial

theorem proper_scanBang (cs : List Char) : (scanBang cs).1.Proper := by
  unfold scanBang
  split <;> trivial

theorem proper_scanOrEqual (orEqual plain : Symbol) (cs : List Char) :
    (scanOrEqual orEqual plain cs).1.Proper := by
  unfold scanOrEqual
  split <;> trivial

theorem proper_scanDouble (c : Char) (double : Symbol) (lone : LexicalFault) (cs : List Char) :
    (scanDouble c double lone cs).1.Proper := by
  unfold scanDouble
  split
  · trivial
  · split <;> trivial

theorem proper_scanString (quote : Char) (cs : List Char) : (scanString quote cs).1.Proper := by
  unfold scanString
  split <;> trivial

theorem proper_scan (first : Char) (cs : List Char) : (scan first cs).1.Proper := by
  unfold scan
  split
  · trivial
  · split
    · trivial
    · trivial
    · exact proper_scanThree cs
    · trivial
    · trivial
    · trivial
    · exact proper_scanEquals cs
    · exact proper_scanBang cs
    · exact proper_scanOrEqual _ _ cs
    · exact proper_scanOrEqual _ _ cs
    · exact proper_scanDouble _ _ _ cs
    · exact proper_scanDouble _ _ _ cs
    · exact proper_scanReference cs
    · exact proper_scanString _ cs
    · exact proper_scanString _ cs
    · exact proper_scanWord _ cs

/-- **Every token of a text is proper.** -/
theorem proper_of_mem_lex {cs : List Char} : ∀ t ∈ lex cs, t.Proper := by
  fun_induction lex cs with
  | case1 => exact fun _ ht => (List.not_mem_nil ht).elim
  | case2 cs first rest _ ih => exact List.forall_mem_cons.2 ⟨proper_scan first rest, ih⟩

end Token

/-! ## Trees of tokens -/

namespace Grammar

open ProductFormula.Expr

/-- **The tree of proper tokens is well formed.** -/
theorem Derives.wellFormed {c : Category} {ts : List Token} {e : Expr} (h : Derives c ts e) :
    (∀ t ∈ ts, t.Proper) → WellFormed Number.IsLiteral e := by
  induction h with
  | plain _ ih | operand _ ih | unsigned _ ih | base _ ih => exact ih
  | conditional _ _ _ ihCondition ihChosen ihOther =>
    intro hts
    simp only [List.forall_mem_append, List.forall_mem_cons] at hts
    obtain ⟨hcondition, -, hchosen, -, hother⟩ := hts
    exact .conditional (ihCondition hcondition) (ihChosen hchosen) (ihOther hother)
  | operation _ _ ihLeft ihRight =>
    intro hts
    simp only [List.forall_mem_append, List.forall_mem_cons] at hts
    obtain ⟨hleft, -, hright⟩ := hts
    exact .binary (ihLeft hleft) (ihRight hright)
  | sign _ ih => exact fun hts => .unary (ih (List.forall_mem_cons.1 hts).2)
  | @power s _ _ _ ih =>
    intro hts
    have hpower : s.power = 1 ∨ s.power = 2 ∨ s.power = 3 := by cases s <;> decide
    exact .exponent hpower (ih (List.forall_mem_append.1 hts).1)
  | number => exact fun hts => .number (.inr (hts _ List.mem_cons_self))
  | string => exact fun _ => .string
  | trueWord | falseWord => exact fun _ => .boolean
  | constant hname => exact fun _ => .number (isLiteral_of_constant? hname)
  | reference =>
    intro hts
    obtain ⟨hne, hbrace, hcaret⟩ := hts _ List.mem_cons_self
    exact .reference hne hbrace hcaret
  | range _ _ ihMin ihMax =>
    intro hts
    simp only [List.forall_mem_append, List.forall_mem_cons] at hts
    obtain ⟨⟨hne, hbrace, hcaret⟩, -, hmin, -, hmax, -⟩ := hts
    exact .between (.reference hne hbrace hcaret) (ihMin hmin) (ihMax hmax)
  | group _ ih =>
    intro hts
    simp only [List.forall_mem_append, List.forall_mem_cons] at hts
    exact ih hts.2.1
  | rounding _ ih | glyph _ ih =>
    intro hts
    simp only [List.forall_mem_append, List.forall_mem_cons] at hts
    exact .glyph (ih hts.2.2.1)
  | grouping _ ih =>
    intro hts
    simp only [List.forall_mem_append, List.forall_mem_cons] at hts
    exact ih hts.2.2.1
  | selection _ _ _ ihCondition ihChosen ihOther =>
    intro hts
    simp only [List.forall_mem_append, List.forall_mem_cons] at hts
    obtain ⟨-, -, hcondition, -, hchosen, -, hother, -⟩ := hts
    exact .conditional (ihCondition hcondition) (ihChosen hchosen) (ihOther hother)
  | @call name args _ _ ih =>
    intro hts
    simp only [List.forall_mem_append, List.forall_mem_cons] at hts
    obtain ⟨hname, -, hargs, -⟩ := hts
    refine .call (isCapitalPart_canonicalName hname) (List.forall_mem_map.2 fun arg harg => ?_)
    have hsub : arg.1 <:+: [Token.symbol .comma].intercalate (args.map (·.1)) :=
      isInfix_intercalate _ (List.mem_map_of_mem harg)
    exact ih arg harg fun t ht => hargs t (hsub.subset ht)

end Grammar

/-! ## Parsed trees -/

namespace Expr

variable {literal : Number → Prop} {e : Expr}

theorem allNodes_eq_flatMap (es : List Expr) : allNodes es = es.flatMap nodes := by
  induction es with
  | nil => rfl
  | cons e es ih => rw [allNodes, ih, List.flatMap_cons]

/-- The name of a function in a well-formed tree is its own canonical form. -/
theorem WellFormed.canonicalName_eq (h : WellFormed literal e) {name : String}
    {args : List Expr} (hmem : .call name args ∈ e.nodes) : canonicalName name = name := by
  induction h with
  | number | string | boolean | reference => simp [nodes] at hmem
  | between _ _ _ _ ihMin ihMax =>
    simp only [nodes, List.mem_cons, List.mem_append, List.not_mem_nil, reduceCtorEq,
      false_or] at hmem
    exact hmem.elim ihMin ihMax
  | glyph _ ih | exponent _ _ ih | unary _ ih =>
    simp only [nodes, List.mem_cons, reduceCtorEq, false_or] at hmem
    exact ih hmem
  | binary _ _ ihLeft ihRight =>
    simp only [nodes, List.mem_cons, List.mem_append, reduceCtorEq, false_or] at hmem
    exact hmem.elim ihLeft ihRight
  | conditional _ _ _ ihCondition ihChosen ihOther =>
    simp only [nodes, List.mem_cons, List.mem_append, reduceCtorEq, false_or] at hmem
    exact hmem.elim ihCondition fun hmem => hmem.elim ihChosen ihOther
  | call hcapitals _ ih =>
    rw [nodes, List.mem_cons, allNodes_eq_flatMap, List.mem_flatMap] at hmem
    rcases hmem with heq | ⟨arg, harg, hmem⟩
    · cases heq
      exact canonicalName_eq_self hcapitals
    · exact ih arg harg hmem

/-- **Every parsed tree is well formed**, and calls its functions by their
    canonical names. -/
theorem wellFormed_parse {limit : Nat} {text : String} (h : parse limit text = .ok e) :
    WellFormed Number.IsLiteral e ∧
      ∀ name args, .call name args ∈ e.nodes → canonicalName name = name := by
  have hwell : WellFormed Number.IsLiteral e :=
    (Grammar.parse_eq_ok_iff_nests.1 h).derives.wellFormed Token.proper_of_mem_lex
  exact ⟨hwell, fun _ _ => hwell.canonicalName_eq⟩

/-- `Math.({^^A}[0,1e999]²³)` calls a function without a name; the name in the
    reference has a caret, and the last number is out of range. -/
theorem wellFormed_nameless :
    parse 25 "Math.(\x7b^^A\x7d[0,1e999]²³)" =
        .ok (.call "" [.exponent (.exponent (.between (.reference "^A" true)
          (.number (.zero false)) (.number (.infinite false))) 2) 3]) ∧
      WellFormed Number.IsLiteral
        (.call "" [.exponent (.exponent (.between (.reference "^A" true)
          (.number (.zero false)) (.number (.infinite false))) 2) 3]) ∧
      canonicalName "" = "" := by
  have hlex : Token.lex "Math.(\x7b^^A\x7d[0,1e999]²³)".toList =
      [.name "Math.", .symbol .leftParen, .reference "^A" true, .symbol .leftBracket,
        .number (.zero false), .symbol .comma, .number (.infinite false), .symbol .rightBracket,
        .superscript .two false, .superscript .three false, .symbol .rightParen] := by
    decide +kernel
  have hname : canonicalName "Math." = "" := by decide +kernel
  have hnumber (n : Number) : Grammar.Derives .expression [.number n] (.number n) :=
    .loosen .number (by decide)
  have hrange := @Grammar.Derives.range "^A" true _ _ _ _ (hnumber (.zero false))
    (hnumber (.infinite false))
  have hpowers := Grammar.Derives.power (s := .three) (.power (s := .two) (.base hrange))
  have hcall := @Grammar.Derives.call "Math." [(_, _)] (by decide)
    (List.forall_mem_singleton.2 (hpowers.loosen (by decide)))
  rw [hname] at hcall
  have hparse := Grammar.parse_of_lex 25 (by decide) hlex hcall
  obtain ⟨hwell, hcanonical⟩ := wellFormed_parse hparse
  exact ⟨hparse, hwell, hcanonical _ _ List.mem_cons_self⟩

end Expr

end ProductFormula
