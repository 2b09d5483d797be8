/-
  Brackets of phrases.

  Every bracket of a phrase stands in a pair: the rules write the opening and
  the closing one together, with phrases between them (`Derives.nested`).  The
  brackets of a text are those of its tokens, unless they stand between quotes
  or inside a reference (`Token.filter_lex`), where they pair with nothing.

  * `bracketHints_eq_nil_of_parse`: there are no hints for an expression without
    such brackets.
-/
import ProductFormula.Brackets
import ProductFormula.Proofs.Grammar.Acceptance
import ProductFormula.Proofs.Number.Decimals
import ProductFormula.Proofs.Reference.Tokens

namespace ProductFormula

open Text

/-! ## Nested brackets -/

/-- Each opening bracket is closed by its partner, behind brackets that are
    nested themselves. -/
inductive Nested : List Char → Prop
  | nil : Nested []
  | pair {pair : BracketPair} {inner} : pair ∈ BracketPair.all → Nested inner →
      Nested (pair.opening :: (inner ++ [pair.closing]))
  | append {front rest} : Nested front → Nested rest → Nested (front ++ rest)

theorem nested_parentheses {inner : List Char} (h : Nested inner) :
    Nested ('(' :: (inner ++ [')'])) :=
  @Nested.pair ⟨'(', ')', "parentheses"⟩ _ (by decide) h

theorem nested_squareBrackets {inner : List Char} (h : Nested inner) :
    Nested ('[' :: (inner ++ [']'])) :=
  @Nested.pair ⟨'[', ']', "square brackets"⟩ _ (by decide) h

theorem nested_braces : Nested ['\x7b', '\x7d'] :=
  @Nested.pair ⟨'\x7b', '\x7d', "braces"⟩ _ (by decide) .nil

theorem nested_flatMap {α : Type} {f : α → List Char} {xs : List α} (h : ∀ x ∈ xs, Nested (f x)) :
    Nested (xs.flatMap f) := by
  induction xs with
  | nil => exact .nil
  | cons x xs ih =>
    obtain ⟨hx, hxs⟩ := List.forall_mem_cons.1 h
    rw [List.flatMap_cons]
    exact .append hx (ih hxs)

/-- A bracket of one pair is none of another. -/
theorem BracketPair.count_pair : ∀ pair ∈ all, ∀ pair' ∈ all,
    [pair.opening, pair.closing].count pair'.opening =
      [pair.opening, pair.closing].count pair'.closing := by
  decide

/-- **Nested brackets balance.** -/
theorem Nested.count_eq {cs : List Char} (h : Nested cs) {pair : BracketPair}
    (hpair : pair ∈ BracketPair.all) : cs.count pair.opening = cs.count pair.closing := by
  induction h with
  | nil => rfl
  | @pair pair' inner hpair' _ ih =>
    have hcount := BracketPair.count_pair _ hpair' pair hpair
    simp only [List.count_cons, List.count_append, List.count_nil] at hcount ⊢
    omega
  | append _ _ ihfront ihrest => rw [List.count_append, List.count_append, ihfront, ihrest]

/-! ## Brackets of tokens -/

def isBracket (c : Char) : Bool :=
  BracketPair.all.any fun pair => c == pair.opening || c == pair.closing

/-- The brackets that a word is written with, what it quotes or refers to apart. -/
def Token.brackets : Token → List Char
  | .symbol .leftParen => ['(']
  | .symbol .rightParen => [')']
  | .symbol .leftBracket => ['[']
  | .symbol .rightBracket => [']']
  | .reference _ _ => ['\x7b', '\x7d']
  | _ => []

theorem brackets_operator (op : BinaryOp) : (Token.symbol op.symbol).brackets = [] := by
  cases op <;> rfl

theorem brackets_sign (op : UnaryOp) : (Token.symbol op.symbol).brackets = [] := by
  cases op <;> rfl

/-- **The brackets of a phrase are nested.** -/
theorem Grammar.Derives.nested {c : Category} {ts : List Token} {e : Expr} (h : Derives c ts e) :
    Nested (ts.flatMap Token.brackets) := by
  induction h with
  | plain _ ih | operand _ ih | unsigned _ ih | base _ ih => exact ih
  | conditional _ _ _ ihc iha ihb =>
    have hparts := Nested.append ihc (.append iha ihb)
    simpa [Token.brackets] using hparts
  | operation _ _ ihl ihr =>
    rw [List.flatMap_append, List.flatMap_cons, brackets_operator]
    exact .append ihl ihr
  | sign _ ih =>
    rw [List.flatMap_cons, brackets_sign]
    exact ih
  | power _ ih =>
    rw [List.flatMap_append]
    exact .append ih .nil
  | number | string | trueWord | falseWord | constant => exact .nil
  | reference => exact nested_braces
  | range _ _ ihmin ihmax =>
    have hrange := nested_squareBrackets (.append ihmin ihmax)
    have hwhole := Nested.append nested_braces hrange
    simpa [Token.brackets] using hwhole
  | group _ ih | rounding _ ih | glyph _ ih | grouping _ ih =>
    have hgroup := nested_parentheses ih
    simpa [Token.brackets] using hgroup
  | selection _ _ _ ihc iha ihb =>
    have hgroup := nested_parentheses (.append ihc (.append iha ihb))
    simpa [Token.brackets] using hgroup
  | @call name args _ _ ih =>
    have hargs : Nested (([.symbol .comma].intercalate (args.map (·.1))).flatMap Token.brackets) := by
      rw [flatMap_intercalate rfl, List.flatMap_map]
      exact nested_flatMap ih
    have hgroup := nested_parentheses hargs
    simpa [Token.brackets] using hgroup

/-! ## Brackets of texts -/

/-- What passes a test that brackets fail is no bracket. -/
theorem isBracket_of_passes {p : Char → Bool}
    (hp : ∀ pair ∈ BracketPair.all, p pair.opening = false ∧ p pair.closing = false) {c : Char}
    (h : p c) : isBracket c = false := by
  rw [isBracket, List.any_eq_false]
  intro pair hpair hc
  rcases (by simpa using hc : c = pair.opening ∨ c = pair.closing) with rfl | rfl
  · rw [(hp pair hpair).1] at h
    cases h
  · rw [(hp pair hpair).2] at h
    cases h

theorem isBracket_of_isNamePart {c : Char} (h : Token.isNamePart c) : isBracket c = false :=
  isBracket_of_passes (by decide) h

theorem isBracket_of_isBlank {c : Char} (h : isBlank c) : isBracket c = false :=
  isBracket_of_passes (by decide) h

theorem isBracket_of_isBrace {c : Char} (h : isBrace c) : isBracket c := by
  rcases (by simpa [isBrace] using h : c = '\x7b' ∨ c = '\x7d') with rfl | rfl
  · rfl
  · rfl

theorem filter_isBracket_eq_nil {cs : List Char} (h : ∀ c ∈ cs, isBracket c = false) :
    cs.filter isBracket = [] := by
  rw [List.filter_eq_nil_iff]
  intro c hc
  rw [h c hc]
  exact Bool.false_ne_true

namespace Token

variable {cs raw : List Char} {t : Token}

theorem ofReferenceText_brackets {inner : List Char}
    (hvalid : Grammar.Valid (ofReferenceText inner)) :
    (ofReferenceText inner).brackets = ['\x7b', '\x7d'] := by
  unfold ofReferenceText at hvalid ⊢
  split at hvalid
  · exact hvalid.elim
  · split at hvalid
    · exact hvalid.elim
    next hne => rw [if_neg hne]; rfl
  · rfl

/-- The brackets of a word are those it is written with. -/
theorem Spells.filter_isBracket (h : Spells raw t) (hvalid : Grammar.Valid t)
    (hquotes : '"' ∉ raw ∧ '\'' ∉ raw)
    (hreference : ∀ inner, '\x7d' ∉ inner → raw = '\x7b' :: (inner ++ ['\x7d']) →
      ∀ c ∈ inner, isBracket c = false) :
    raw.filter isBracket = t.brackets := by
  cases h with
  | number hread =>
    refine filter_isBracket_eq_nil fun c hc => ?_
    rcases Decimal.isNamePart_or_sign hread hc with hpart | rfl | rfl
    · exact isBracket_of_isNamePart hpart
    · rfl
    · rfl
  | string hquote =>
    rcases hquote with rfl | rfl
    · exact absurd List.mem_cons_self hquotes.1
    · exact absurd List.mem_cons_self hquotes.2
  | name hparts => exact filter_isBracket_eq_nil fun c hc => isBracket_of_isNamePart (hparts c hc)
  | @reference inner hclosing =>
    have hinner := filter_isBracket_eq_nil (hreference inner hclosing rfl)
    rw [ofReferenceText_brackets hvalid, List.filter_cons_of_pos rfl, List.filter_append, hinner]
    rfl
  | superscript s => cases s <;> rfl
  | glyph g => cases g <;> rfl
  | symbol s => cases s <;> rfl

/-- A word that is written with no other brackets than its own closes its
    braces. -/
theorem closesBraces_of_brackets (h : raw.filter isBracket = t.brackets) : ClosesBraces raw := by
  have hbraces : raw.filter isBrace = t.brackets.filter isBrace := by
    rw [← h, List.filter_filter]
    refine List.filter_congr fun c _ => ?_
    cases hc : isBrace c with
    | false => rfl
    | true => rw [isBracket_of_isBrace hc]; rfl
  rw [ClosesBraces, hbraces]
  unfold brackets
  split <;> decide

/-- **The brackets of a text are those of its tokens**, if nothing is quoted and
    no reference holds a bracket. -/
theorem filter_lex (hvalid : ∀ t ∈ lex cs, Grammar.Valid t) (hquotes : '"' ∉ cs ∧ '\'' ∉ cs)
    (hreferences : ∀ inner, .braced inner ∈ Segment.ofText cs → ∀ c ∈ inner, isBracket c = false) :
    cs.filter isBracket = (lex cs).flatMap brackets := by
  induction cs using lex_induction with
  | blank cs hblank =>
    rw [lex_blanks hblank, filter_isBracket_eq_nil fun c hc => isBracket_of_isBlank (hblank c hc)]
    rfl
  | token blanks first raw t rest hleads ih =>
    rw [hleads.lex_eq] at hvalid ⊢
    obtain ⟨hword, hrest⟩ := List.forall_mem_cons.1 hvalid
    have hnone := filter_isBracket_eq_nil fun c hc => isBracket_of_isBlank (hleads.blank c hc)
    have hblanks : ClosesBraces blanks :=
      closesBraces_of_filter (filter_isBrace_eq_nil fun c hc => isBrace_of_isBlank (hleads.blank c hc))
    rw [Segment.ofText_append hblanks] at hreferences
    rw [← List.cons_append] at hquotes hreferences ⊢
    simp only [List.mem_append, not_or] at hquotes hreferences
    -- a reference in front is one of the text
    have hbrackets : (first :: raw).filter isBracket = t.brackets := by
      refine (hleads.spells hword).filter_isBracket hword ⟨hquotes.1.2.1, hquotes.2.2.1⟩ ?_
      intro inner hclosing hraw c hc
      refine hreferences inner (.inr ?_) c hc
      rw [hraw, List.cons_append, List.append_assoc, List.singleton_append,
        Segment.ofText_braced (List.ne_nil_of_mem hc) hclosing]
      exact List.mem_cons_self
    have hbehind : ∀ inner, .braced inner ∈ Segment.ofText rest → ∀ c ∈ inner,
        isBracket c = false := by
      intro inner hinner
      refine hreferences inner (.inr ?_)
      rw [Segment.ofText_append (closesBraces_of_brackets hbrackets)]
      exact List.mem_append_right _ hinner
    rw [List.filter_append, List.filter_append, hnone, hbrackets,
      ih hrest ⟨hquotes.1.2.2, hquotes.2.2.2⟩ hbehind, List.nil_append, List.flatMap_cons]

end Token

/-! ## Hints -/

theorem bracketHints_eq_nil_iff {text : String} : bracketHints text = [] ↔
    ∀ pair ∈ BracketPair.all, text.toList.count pair.opening = text.toList.count pair.closing := by
  rw [bracketHints, List.filterMap_eq_nil_iff]
  refine forall₂_congr fun pair hpair => ?_
  simp [BracketPair.hint?]

theorem count_filter_isBracket (cs : List Char) {pair : BracketPair} (h : pair ∈ BracketPair.all) :
    (cs.filter isBracket).count pair.opening = cs.count pair.opening ∧
      (cs.filter isBracket).count pair.closing = cs.count pair.closing := by
  have hopening : isBracket pair.opening := by
    revert pair
    decide
  have hclosing : isBracket pair.closing := by
    revert pair
    decide
  exact ⟨List.count_filter hopening, List.count_filter hclosing⟩

/-- **No hint accuses an expression**: where nothing is quoted and the
    references hold no brackets, a text that is parsed has no hints. -/
theorem bracketHints_eq_nil_of_parse {limit : Nat} {text : String} {e : Expr}
    (h : Expr.parse limit text = .ok e) (hquotes : '"' ∉ text.toList ∧ '\'' ∉ text.toList)
    (hreferences : ∀ inner, .braced inner ∈ Segment.ofText text.toList →
      ∀ c ∈ inner, isBracket c = false) : bracketHints text = [] := by
  have hderives := (Grammar.parse_eq_ok_iff_nests.1 h).derives
  have hnested := hderives.nested
  rw [← Token.filter_lex hderives.valid hquotes hreferences] at hnested
  rw [bracketHints_eq_nil_iff]
  intro pair hpair
  obtain ⟨hopening, hclosing⟩ := count_filter_isBracket text.toList hpair
  rw [← hopening, ← hclosing]
  exact hnested.count_eq hpair

/-- All three pairs of brackets, each around others. -/
theorem bracketHints_nested :
    let text := "SE(\x7bA.b\x7d[MAX(1,(2)),³√(8)],¹(\x7b^C\x7d²),-(3))"
    (∃ e, Expr.parse 20 text = .ok e) ∧ ('"' ∉ text.toList ∧ '\'' ∉ text.toList) ∧
      (∀ inner, .braced inner ∈ Segment.ofText text.toList → ∀ c ∈ inner, isBracket c = false) ∧
      bracketHints text = [] := by
  intro text
  obtain ⟨e, hparse⟩ : ∃ e, Expr.parse 20 text = .ok e := by
    have hok : (Expr.parse 20 text).isOk := by decide +kernel
    cases hresult : Expr.parse 20 text with
    | error => rw [hresult] at hok; cases hok
    | ok e => exact ⟨e, rfl⟩
  have hquotes : '"' ∉ text.toList ∧ '\'' ∉ text.toList := by decide +kernel
  have hreferences : ∀ inner, .braced inner ∈ Segment.ofText text.toList →
      ∀ c ∈ inner, isBracket c = false := by
    have hsegments : Segment.ofText text.toList = "SE(".toList.map .plain ++
        .braced "A.b".toList :: ("[MAX(1,(2)),³√(8)],¹(".toList.map .plain ++
          .braced "^C".toList :: "²),-(3))".toList.map .plain) := by decide +kernel
    intro inner hinner c hc
    rw [hsegments] at hinner
    rcases (by simpa using hinner : inner = "A.b".toList ∨ inner = "^C".toList) with rfl | rfl
    · exact isBracket_of_isNamePart (List.all_eq_true.1 rfl c hc)
    · rcases (by simpa using hc : c = '^' ∨ c = 'C') with rfl | rfl
      · rfl
      · rfl
  exact ⟨⟨e, hparse⟩, hquotes, hreferences,
    bracketHints_eq_nil_of_parse hparse hquotes hreferences⟩

end ProductFormula
