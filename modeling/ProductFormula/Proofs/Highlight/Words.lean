/-
  Colouring and the words of an expression.

  A literal, a reference and the `SE` of a call have colours of their own
  (`kindOf?`).  In the return of an expression they are coloured as the parser
  cuts them (`Agrees`), unless the expression is written in one of three ways:
  with an exponent, which colouring takes for text, with blanks between `SE` and
  its parenthesis, or with a reference in a range that holds the first `]` behind
  the opening bracket.  Other words are `Plain`.

  * `passes_word`: colouring comes from word to word, so long as they are plain;
  * `plain_of_agreeing`: at the first word that is not plain it parts from the
    parser;
  * `agrees_iff_plainText`: the two cut alike exactly the plain expressions.
-/
import ProductFormula.Proofs.Grammar.Order
import ProductFormula.Proofs.Highlight.Reach
import ProductFormula.Proofs.Number.Decimals
import ProductFormula.Proofs.Token.Places

namespace ProductFormula

open Text

namespace Highlight

/-! ## Colours of words -/

/-- The colour of a word, given the one behind it. -/
def kindOf? (t : Token) (next : Option Token) : Option Kind :=
  match t with
  | .number _ => some .number
  | .reference _ _ => some .replacement
  | .name name => if name = "SE" ∧ next = some (.symbol .leftParen) then some .keyword else none
  | _ => none

/-- The span that a word is behind the sign of a return. -/
def wordSpan (text : List Char) (kind : Kind) (span : Token.Span) : Span :=
  ⟨kind, .ofList (span.raw text), (String.ofList ('=' :: span.front text)).utf8ByteSize⟩

/-- Every literal, reference and `SE` of a call is one piece of its colour. -/
def Agrees (x : String) : Prop :=
  ∀ span ∈ Token.spans 0 x.toList,
    ∀ kind ∈ kindOf? span.token (Token.lex (span.back x.toList)).head?,
      (highlight ("=" ++ x)).count (wordSpan x.toList kind span) = 1

instance (x : String) : Decidable (Agrees x) :=
  inferInstanceAs (Decidable (∀ span ∈ Token.spans 0 x.toList,
    ∀ kind ∈ kindOf? span.token (Token.lex (span.back x.toList)).head?,
      (highlight ("=" ++ x)).count (wordSpan x.toList kind span) = 1))

/-- A text without quotes and semicolons. -/
def Bare (cs : List Char) : Prop := ∀ c ∈ cs, c ≠ '"' ∧ c ≠ '\'' ∧ c ≠ ';'

/-- The word is written as colouring expects it. -/
structure Plain (raw : List Char) (t : Token) (back : List Char) : Prop where
  /-- a literal has no exponent -/
  mantissa : t.isNumber → 'e' ∉ raw ∧ 'E' ∉ raw
  /-- the parenthesis of a call of `SE` is right behind it -/
  glued : t = .name "SE" → (Token.lex back).head? = some (.symbol .leftParen) →
    back.head? = some '('
  /-- behind an opening bracket a comma comes before all closing ones -/
  bounded : t = .symbol .leftBracket → ',' ∈ back.takeWhile (· != ']')

variable {first : Char} {cs raw front rest blanks source text : List Char} {t : Token}

/-! ## Plain words -/

theorem isSeparate_glyph (g : Glyph) : ∀ c ∈ g.symbol.toList, isSeparate c := by
  rw [← List.all_eq_true]
  cases g <;> decide +kernel

/-- Symbols run together, or stand for themselves, or are the opening bracket. -/
theorem pieces_of_symbol (s : Symbol) : (∀ c ∈ s.spelling.toList, isRunning c) ∨
    (∀ c ∈ s.spelling.toList, isSeparate c) ∨ s = .leftBracket := by
  rw [← List.all_eq_true, ← List.all_eq_true]
  cases s <;> decide +kernel

/-- Colouring comes to the end of a word, and gives it its colour. -/
structure Passes (source front raw : List Char) (t : Token) (rest : List Char) : Prop where
  reaches : Reaches source (front ++ raw) rest
  stands : ∀ kind ∈ kindOf? t (Token.lex rest).head?,
    Stands (pieces .opening source) front (kind, raw)

theorem passes_of_piece {kind : Kind} (h : Reaches source front ((first :: raw) ++ rest))
    (hfirst : isRunning first = false) (hpiece : OnePiece kind (first :: raw) rest)
    (hkind : ∀ kind' ∈ kindOf? t (Token.lex rest).head?, kind' = kind) :
    Passes source front (first :: raw) t rest := by
  obtain ⟨hreaches, hstands⟩ := h.piece (by simpa using hfirst) hpiece
  refine ⟨hreaches, fun kind' hkind' => ?_⟩
  rw [hkind kind' hkind']
  exact hstands

theorem passes_of_ends (h : Reaches source front ((first :: raw) ++ rest))
    (hfirst : isRunning first = false) (hends : Ends (first :: raw) rest)
    (hkind : kindOf? t (Token.lex rest).head? = none) :
    Passes source front (first :: raw) t rest := by
  refine ⟨h.ends (by simpa using hfirst) hends, fun kind hmem => ?_⟩
  rw [hkind] at hmem
  cases hmem

theorem passes_separate (h : Reaches source front ((first :: raw) ++ rest))
    (hraw : ∀ c ∈ first :: raw, isSeparate c)
    (hkind : kindOf? t (Token.lex rest).head? = none) :
    Passes source front (first :: raw) t rest :=
  passes_of_ends h (isSeparate_iff.1 (hraw first List.mem_cons_self)).2.1 (ends_separate hraw) hkind

theorem passes_number {n : Number} (h : Reaches source front ((first :: raw) ++ rest))
    (hspells : Token.Spells (first :: raw) (.number n))
    (hmantissa : 'e' ∉ first :: raw ∧ 'E' ∉ first :: raw)
    (hrest : ∀ c ∈ rest.head?, ¬ (c.isDigit ∨ c = '.')) :
    Passes source front (first :: raw) (.number n) rest := by
  obtain ⟨hfirst, hraw⟩ :=
    List.forall_mem_cons.1 (hspells.digits_of_not_mem hmantissa.1 hmantissa.2)
  have hrunning := isRunning_of_isNamePart (isNamePart_of_mantissa hfirst)
  refine passes_of_piece h hrunning (onePiece_number (hspells.startsNumber rest) hraw hrest) ?_
  rintro kind ⟨⟩
  rfl

theorem passes_name {name : String} (h : Reaches source front ((first :: raw) ++ rest))
    (hspells : Token.Spells (first :: raw) (.name name))
    (hrest : ∀ c ∈ rest.head?, Token.isNamePart c = false)
    (hglued : name = "SE" → (Token.lex rest).head? = some (.symbol .leftParen) →
      rest.head? = some '(') :
    Passes source front (first :: raw) (.name name) rest := by
  obtain ⟨rfl, hparts⟩ := hspells.name_inv
  have hrunning := isRunning_of_isNamePart (hparts first List.mem_cons_self)
  by_cases hcall : String.ofList (first :: raw) = "SE" ∧
      (Token.lex rest).head? = some (.symbol .leftParen)
  · obtain ⟨more, rfl⟩ := List.head?_eq_some_iff.1 (hglued hcall.1 hcall.2)
    obtain ⟨rfl, rfl⟩ : first = 'S' ∧ raw = ['E'] := by
      simpa using congrArg String.toList hcall.1
    refine passes_of_piece h rfl (onePiece_keyword more) fun kind hkind => ?_
    rw [kindOf?, if_pos hcall] at hkind
    cases hkind
    rfl
  · exact passes_of_ends h hrunning (ends_name hparts hrest) (if_neg hcall)

theorem passes_symbol {s : Symbol} (h : Reaches source front ((first :: raw) ++ rest))
    (hspells : first :: raw = s.spelling.toList)
    (hbracket : s = .leftBracket → isNameBracket rest = false) :
    Passes source front (first :: raw) (.symbol s) rest := by
  rcases pieces_of_symbol s with hrunning | hseparate | rfl
  · rw [← hspells] at hrunning
    exact ⟨h.running hrunning, by simp [kindOf?]⟩
  · rw [← hspells] at hseparate
    exact passes_separate h hseparate rfl
  · obtain ⟨rfl, rfl⟩ : first = '[' ∧ raw = [] := by
      simpa [Symbol.spelling] using hspells
    exact passes_of_ends h rfl
      (onePiece_operator rfl rfl fun _ => hbracket rfl).ends rfl

/-- **Colouring comes to the end of a plain word**, and gives it its colour. -/
theorem passes_word (h : Reaches source front (blanks ++ first :: (raw ++ rest)))
    (hleads : Token.Leads blanks first raw t rest) (hvalid : Grammar.Valid t)
    (hbare : Bare (first :: (raw ++ rest)))
    (happart : t.isNumber → ∀ c ∈ rest.head?, ¬ (c.isDigit ∨ c = '.'))
    (hplain : Plain (first :: raw) t rest) :
    Passes source (front ++ blanks) (first :: raw) t rest := by
  have hword : Reaches source (front ++ blanks) ((first :: raw) ++ rest) := by
    refine h.blanks hleads.blank fun c hc => ?_
    cases hc
    exact hleads.starts
  have hspells := hleads.spells hvalid
  have hseparator : ';' ∉ first :: (raw ++ rest) := fun hmem => (hbare _ hmem).2.2 rfl
  generalize hraw : first :: raw = word at hspells
  cases hspells with
  | @number _ d hread =>
    subst hraw
    exact passes_number hword (.number hread) (hplain.mantissa rfl) (happart rfl)
  | string hquote =>
    obtain ⟨rfl, -⟩ := List.cons_eq_cons.1 hraw
    obtain ⟨hdouble, hsingle, -⟩ := hbare first List.mem_cons_self
    exact absurd hquote (not_or.2 ⟨hdouble, hsingle⟩)
  | name hparts =>
    subst hraw
    refine passes_name hword (.name hparts) hleads.not_isNamePart fun hname => hplain.glued ?_
    rw [hname]
  | @reference inner hclose =>
    obtain ⟨rfl, rfl⟩ := List.cons_eq_cons.1 hraw
    have hinner : ';' ∉ inner := fun hmem => hseparator (by simp [hmem])
    obtain ⟨name, optional, hreference⟩ := Token.exists_reference hvalid
    refine passes_of_piece hword rfl (onePiece_reference hinner hclose rest) ?_
    rw [hreference]
    rintro kind ⟨⟩
    rfl
  | superscript s =>
    have hseparate := isSeparate_glyph s.toGlyph
    rw [← Superscript.symbol, ← hraw] at hseparate
    rw [← hraw]
    exact passes_separate hword hseparate rfl
  | glyph g =>
    have hseparate := isSeparate_glyph g
    rw [← hraw] at hseparate ⊢
    exact passes_separate hword hseparate rfl
  | symbol s =>
    rw [← hraw]
    refine passes_symbol hword hraw fun hbracket => ?_
    have hrest : ';' ∉ rest := fun hmem => hseparator (by simp [hmem])
    exact (isNameBracket_eq_false_iff hrest).2 (hplain.bounded (congrArg _ hbracket))

/-! ## Words that are not plain -/

/-- A closing bracket stands in references, in strings and by itself. -/
theorem reference_of_mem (h : Token.Spells raw t) (hvalid : Grammar.Valid t)
    (hbare : Bare raw) (ht : t ≠ .symbol .rightBracket) (hmem : ']' ∈ raw) :
    ∃ name optional, t = .reference name optional := by
  cases h with
  | number hread =>
    rcases Decimal.isNamePart_or_sign hread hmem with hpart | hsign | hsign
    · cases hpart
    · cases hsign
    · cases hsign
  | @string quote _ _ hquotes =>
    obtain ⟨hdouble, hsingle, -⟩ := hbare quote List.mem_cons_self
    exact absurd hquotes (not_or.2 ⟨hdouble, hsingle⟩)
  | name hparts => cases hparts _ hmem
  | reference => exact Token.exists_reference hvalid
  | superscript s => exact absurd hmem (by cases s <;> decide +kernel)
  | glyph g => exact absurd hmem (by cases g <;> decide +kernel)
  | symbol s => exact absurd hmem (by cases s <;> first | decide +kernel | exact absurd rfl ht)

/-- Where a comma is in front of all closing brackets among the tokens, but a
    closing bracket in front of all commas in the text, a reference holds it. -/
theorem exists_reference_over (place : Nat) (hvalid : ∀ t ∈ Token.lex cs, Grammar.Valid t)
    (hbare : Bare cs) (hcomma : Grammar.CommaFirst (Token.lex cs))
    (hbracket : ',' ∉ cs.takeWhile (· != ']')) :
    ']' ∈ cs ∧ ∃ span ∈ Token.spans place cs,
      (∃ name optional, span.token = .reference name optional) ∧
        place ≤ span.start ∧ span.start ≤ place + (cs.takeWhile (· != ']')).length := by
  induction cs using Token.lex_induction generalizing place with
  | blank cs hblank =>
    obtain ⟨us, vs, hlex, -⟩ := hcomma
    rw [Token.lex_blanks hblank] at hlex
    simp at hlex
  | token blanks first raw t rest hleads ih =>
    rw [hleads.lex_eq] at hvalid hcomma
    obtain ⟨ht, hvalid⟩ := List.forall_mem_cons.1 hvalid
    have hspells := hleads.spells ht
    have hblank : ']' ∉ blanks := fun hmem => by cases hleads.blank _ hmem
    rw [takeWhile_ne_append hblank] at hbracket ⊢
    rw [hleads.spans_eq]
    by_cases hmem : ']' ∈ first :: raw
    · -- the token is the reference
      have hne : t ≠ .symbol .rightBracket := by
        rintro rfl
        obtain hcomma | ⟨hne, -⟩ := Grammar.commaFirst_cons_iff.1 hcomma
        · cases hcomma
        · exact hne rfl
      refine ⟨List.mem_append_right _ (List.mem_append_left rest hmem), _, List.mem_cons_self,
        reference_of_mem hspells ht (fun c hc => ?_) hne hmem, Nat.le_add_right _ _, ?_⟩
      · exact hbare c (List.mem_append_right _ (List.mem_append_left rest hc))
      · rw [List.length_append]
        exact Nat.add_le_add_left (Nat.le_add_right _ _) place
    · rw [← List.cons_append, takeWhile_ne_append hmem] at hbracket ⊢
      simp only [List.mem_append, not_or] at hbracket
      have hrest : Grammar.CommaFirst (Token.lex rest) := by
        rcases Grammar.commaFirst_cons_iff.1 hcomma with rfl | ⟨-, hrest⟩
        · exact absurd (by rw [hspells.symbol_inv]; decide) hbracket.2.1
        · exact hrest
      obtain ⟨hclosing, span, hspan, hreference, hle, hge⟩ :=
        ih (place + (blanks.length + (raw.length + 1))) hvalid
          (fun c hc => hbare c (by simp [hc])) hrest hbracket.2.2
      refine ⟨by simp [hclosing], span, List.mem_cons_of_mem _ hspan, hreference, ?_, ?_⟩
      · omega
      · simp only [List.length_append, List.length_cons]
        omega

/-- The word has its colour in the return of the text. -/
def Agreeing (text front raw : List Char) (t : Token) (rest : List Char) : Prop :=
  ∀ kind ∈ kindOf? t (Token.lex rest).head?,
    Stands (pieces .opening ('=' :: text)) ('=' :: front) (kind, raw)

/-- A bracket taken for that of a name covers the start of a reference. -/
theorem bounded_of_agreeing (h : Reaches ('=' :: text) ('=' :: front) ('[' :: rest))
    (htext : text = front ++ '[' :: rest) (hvalid : ∀ t ∈ Token.lex rest, Grammar.Valid t)
    (hbare : Bare rest)
    (hcomma : Grammar.CommaFirst (Token.lex rest))
    (hagree : ∀ span ∈ Token.spans (front ++ ['[']).length rest,
      Agreeing text (span.front text) (span.raw text) span.token (span.back text)) :
    ',' ∈ rest.takeWhile (· != ']') := by
  by_contra hbracket
  obtain ⟨hmem, span, hspan, ⟨name, optional, hreference⟩, hle, hge⟩ :=
    exists_reference_over (front ++ ['[']).length hvalid hbare hcomma hbracket
  obtain ⟨inner, more, rfl, hinner⟩ := List.eq_append_cons_of_mem hmem
  rw [takeWhile_ne_cons hinner] at hbracket hge
  have hseparator : ';' ∉ inner := fun hc => (hbare _ (List.mem_append_left _ hc)).2.2 rfl
  -- the piece of the bracket, and the piece of the reference inside
  have hpiece : Stands (pieces .opening ('=' :: text)) ('=' :: front)
      (.assigned, '[' :: (inner ++ [']'])) := by
    have hone := onePiece_bracket hseparator hinner hbracket more
    refine (Reaches.piece ?_ (by simp [isRunning]) hone).2
    simpa using h
  have hover := hagree span hspan .replacement (by rw [hreference]; rfl)
  have hstart : (span.front text).length = span.start := by
    rw [Token.Span.front, List.length_take, htext]
    simp only [List.length_append, List.length_cons, List.length_nil] at hge ⊢
    omega
  have houtside := hpiece.outside hover
  simp only [List.length_cons, List.length_append, List.length_nil, hstart] at houtside hle hge
  omega

/-- A word with its colour is plain, a bracket if those behind it have theirs. -/
theorem plain_of_agreeing (h : Reaches ('=' :: text) ('=' :: front) (first :: (raw ++ rest)))
    (htext : text = front ++ first :: (raw ++ rest))
    (hspells : Token.Spells (first :: raw) t)
    (hvalid : ∀ t ∈ Token.lex rest, Grammar.Valid t)
    (hordered : Grammar.Ordered (t :: Token.lex rest))
    (hbare : Bare rest)
    (hword : Agreeing text front (first :: raw) t rest)
    (hagree : ∀ span ∈ Token.spans (front ++ first :: raw).length rest,
      Agreeing text (span.front text) (span.raw text) span.token (span.back text)) :
    Plain (first :: raw) t rest where
  mantissa hnumber := by
    have hkind : kindOf? t (Token.lex rest).head? = some .number := by
      cases t <;> first | rfl | cases hnumber
    have hdigits := digits_of_mem_pieces _ (hword .number hkind).mem rfl
    exact ⟨fun he => absurd (hdigits _ he) (by decide), fun he => absurd (hdigits _ he) (by decide)⟩
  glued := by
    rintro rfl hparen
    obtain ⟨before, after, hpieces, hbefore⟩ := hword .keyword (if_pos ⟨rfl, hparen⟩)
    have hafter : joined after = rest := by
      have hjoined := joined_pieces .opening ('=' :: text)
      rw [hpieces, joined_append, joined_cons, hbefore, htext] at hjoined
      simpa using hjoined
    rw [← hafter]
    exact head?_of_keyword before hpieces
  bounded := by
    rintro rfl
    obtain ⟨rfl, rfl⟩ := List.cons_eq_cons.1 hspells.symbol_inv
    exact bounded_of_agreeing h htext hvalid hbare (hordered.opening [] _ rfl) hagree

/-- No literal goes on behind a literal. -/
theorem apart_of_ordered (hvalid : ∀ t ∈ Token.lex rest, Grammar.Valid t)
    (hordered : Grammar.Ordered (t :: Token.lex rest)) (ht : t.isNumber) :
    ∀ c ∈ rest.head?, ¬ (c.isDigit ∨ c = '.') := by
  intro c hc hdigit
  obtain ⟨more, rfl⟩ := List.head?_eq_some_iff.1 hc
  obtain ⟨n, ts, hlex⟩ := Token.exists_lex_number hdigit hvalid
  have hapart := hordered.apart
  rw [hlex, List.isChain_cons_cons] at hapart
  cases hapart.1 ht

/-- **Words from here on have their colours iff they are plain.** -/
theorem agreeing_iff_plain (hreaches : Reaches ('=' :: text) ('=' :: front) cs)
    (htext : text = front ++ cs) (hvalid : ∀ t ∈ Token.lex cs, Grammar.Valid t)
    (hordered : Grammar.Ordered (Token.lex cs))
    (hbare : Bare cs) :
    (∀ span ∈ Token.spans front.length cs,
        Agreeing text (span.front text) (span.raw text) span.token (span.back text)) ↔
      ∀ span ∈ Token.spans front.length cs,
        Plain (span.raw text) span.token (span.back text) := by
  induction cs using Token.lex_induction generalizing front with
  | blank cs hblank =>
    have hspans : Token.spans front.length cs = [] := by
      rw [← List.map_eq_nil_iff (f := Token.Span.token), Token.map_token_spans,
        Token.lex_blanks hblank]
    simp [hspans]
  | token blanks first raw t rest hleads ih =>
    rw [hleads.lex_eq] at hvalid hordered
    obtain ⟨ht, hvalid⟩ := List.forall_mem_cons.1 hvalid
    rw [hleads.forall_mem_spans_iff front htext (Agreeing text),
      hleads.forall_mem_spans_iff front htext fun _ => Plain]
    have hword : Reaches ('=' :: text) ('=' :: (front ++ blanks)) (first :: (raw ++ rest)) :=
      hreaches.blanks hleads.blank fun c hc => by
        cases hc
        exact hleads.starts
    have hback : Bare (first :: (raw ++ rest)) :=
      fun c hc => hbare c (List.mem_append_right _ hc)
    have hrest : Bare rest :=
      fun c hc => hback c (List.mem_cons_of_mem _ (List.mem_append_right _ hc))
    have hsame : text = front ++ blanks ++ first :: raw ++ rest := by simp [htext]
    have hpasses (hplain : Plain (first :: raw) t rest) :
        Passes ('=' :: text) ('=' :: (front ++ blanks)) (first :: raw) t rest :=
      passes_word hreaches hleads ht hback (apart_of_ordered hvalid hordered) hplain
    have hbehind (hplain : Plain (first :: raw) t rest) :=
      ih (hpasses hplain).reaches hsame hvalid hordered.tail hrest
    constructor
    · rintro ⟨hfirst, hagree⟩
      have hplain := plain_of_agreeing hword (by simp [htext]) (hleads.spells ht) hvalid hordered
        hrest hfirst hagree
      exact ⟨hplain, (hbehind hplain).1 hagree⟩
    · rintro ⟨hplain, hmore⟩
      exact ⟨(hpasses hplain).stands, (hbehind hplain).2 hmore⟩

/-! ## Expressions -/

/-- All words of the expression are written as colouring expects them. -/
def PlainText (x : String) : Prop :=
  ∀ span ∈ Token.spans 0 x.toList,
    Plain (span.raw x.toList) span.token (span.back x.toList)

theorem agrees_iff_agreeing (x : String) : Agrees x ↔ ∀ span ∈ Token.spans 0 x.toList,
    Agreeing x.toList (span.front x.toList) (span.raw x.toList) span.token
      (span.back x.toList) := by
  have hsource : ("=" ++ x).toList = '=' :: x.toList := by
    rw [String.toList_append]
    rfl
  refine forall₂_congr fun span _ => forall₂_congr fun kind _ => ?_
  have hfront : '=' :: span.front x.toList <+: ("=" ++ x).toList := by
    rw [hsource, List.prefix_cons_inj]
    exact List.take_prefix _ _
  rw [wordSpan, count_highlight_eq_one_iff hfront, hsource]

/-- **Colouring cuts an expression as the parser does iff its words are plain**,
    whatever its names, points, powers and runs of operators. -/
theorem agrees_iff_plainText {limit : Nat} {x : String} {e : Expr}
    (h : Expr.parse limit x = .ok e)
    (hbare : Bare x.toList) : Agrees x ↔ PlainText x := by
  have hderives := (Grammar.parse_eq_ok_iff_nests.1 h).derives
  have hhash : x.toList.head? ≠ some '#' := by
    intro hhead
    obtain ⟨more, hmore⟩ := List.head?_eq_some_iff.1 hhead
    have hvalid := hderives.valid
    rw [hmore, Token.lex_cons (by decide +kernel)] at hvalid
    exact hvalid _ List.mem_cons_self
  rw [agrees_iff_agreeing, PlainText]
  have hreaches : Reaches ('=' :: x.toList) ['='] x.toList := reaches_return hhash
  exact agreeing_iff_plain hreaches rfl hderives.valid hderives.ordered hbare

theorem derives_decimal (c : Grammar.Category) (d : Decimal) :
    Grammar.Derives c [.number (d.toNumber false)] (.number (d.toNumber false)) :=
  .loosen .number (Nat.zero_le _)

/-- `SE({A}[1,2.5],.5,{B})` is plain. -/
theorem agrees_selection : ∃ e,
    Expr.parse 24 "SE(\x7bA\x7d[1,2.5],.5,\x7bB\x7d)" = .ok e ∧
      Bare "SE(\x7bA\x7d[1,2.5],.5,\x7bB\x7d)".toList ∧
      Agrees "SE(\x7bA\x7d[1,2.5],.5,\x7bB\x7d)" ∧
      PlainText "SE(\x7bA\x7d[1,2.5],.5,\x7bB\x7d)" := by
  have hlex : Token.lex "SE(\x7bA\x7d[1,2.5],.5,\x7bB\x7d)".toList =
      [.name "SE", .symbol .leftParen, .reference "A" false, .symbol .leftBracket,
        .number (Decimal.toNumber false ⟨1, 0⟩), .symbol .comma,
        .number (Decimal.toNumber false ⟨25, -1⟩), .symbol .rightBracket, .symbol .comma,
        .number (Decimal.toNumber false ⟨5, -1⟩), .symbol .comma, .reference "B" false,
        .symbol .rightParen] := by
    decide +kernel
  have hrange := @Grammar.Derives.range "A" false _ _ _ _ (derives_decimal .expression ⟨1, 0⟩)
    (derives_decimal .expression ⟨25, -1⟩)
  have hother := @Grammar.Derives.reference "B" false
  have hselection := Grammar.Derives.selection (hrange.loosen (Nat.zero_le _))
    (derives_decimal .expression ⟨5, -1⟩) (hother.loosen (Nat.zero_le _))
  have hparse := Grammar.parse_of_lex 24 (by decide) hlex hselection
  have hbare : Bare "SE(\x7bA\x7d[1,2.5],.5,\x7bB\x7d)".toList :=
    List.all_iff_forall_prop.1 (by decide)
  have hagrees : Agrees "SE(\x7bA\x7d[1,2.5],.5,\x7bB\x7d)" := by decide +kernel
  exact ⟨_, hparse, hbare, hagrees, (agrees_iff_plainText hparse hbare).1 hagrees⟩

/-- An exponent, a blank behind `SE`, and a reference `{B]}` in a range are
    parsed, and coloured otherwise. -/
theorem parsed_and_cut_otherwise :
    ((∃ e, Expr.parse 16 "1e5" = .ok e) ∧ ¬ Agrees "1e5") ∧
      ((∃ e, Expr.parse 16 "SE (1)" = .ok e) ∧ ¬ Agrees "SE (1)") ∧
      (∃ e, Expr.parse 16 "\x7bA\x7d[\x7bB]\x7d,1]" = .ok e) ∧
      ¬ Agrees "\x7bA\x7d[\x7bB]\x7d,1]" := by
  have hexponent := derives_decimal .primary ⟨1, 5⟩
  have hgrouping := Grammar.Derives.grouping (derives_decimal .expression ⟨1, 0⟩)
  have hbound := @Grammar.Derives.reference "B]" false
  have hrange := @Grammar.Derives.range "A" false _ _ _ _ (hbound.loosen (Nat.zero_le _))
    (derives_decimal .expression ⟨1, 0⟩)
  exact ⟨⟨⟨_, Grammar.parse_of_lex 16 (by decide) (by decide +kernel) hexponent⟩, by decide +kernel⟩,
    ⟨⟨_, Grammar.parse_of_lex 16 (by decide) (by decide +kernel) hgrouping⟩, by decide +kernel⟩,
    ⟨_, Grammar.parse_of_lex 16 (by decide) (by decide +kernel) hrange⟩, by decide +kernel⟩

end Highlight

end ProductFormula
