/-
  Where the tokens of a text stand.

  A token takes the characters from its start up to its stop (`Span`), counted
  from the front of the text.  A place is free if no token reaches over it, and
  if it does not part a call from its parenthesis (`Free`).

  * `map_token_spans`: the spans are those of the tokens of the text;
  * `lex_insert`: blanks put into a free place change no token, and so
    `Expr.parse_insert` no tree.
-/
import ProductFormula.Proofs.Grammar.Acceptance
import ProductFormula.Proofs.Token.Surroundings

namespace ProductFormula

namespace Token

open Text

/-! ## Spans -/

/-- A token, and the places where its characters start and where they stop. -/
structure Span where
  token : Token
  start : Nat
  stop : Nat
deriving DecidableEq

/-- The spans of a text that starts at a place. -/
def spans (place : Nat) (cs : List Char) : List Span :=
  match _trimmed : trimStart cs with
  | [] => []
  | first :: rest =>
    let start := place + (cs.length - (first :: rest).length)
    let stop := place + (cs.length - (scan first rest).2.length)
    ⟨(scan first rest).1, start, stop⟩ :: spans stop (scan first rest).2
termination_by cs.length
decreasing_by
  have kept : (first :: rest).length ≤ cs.length := by
    rw [← _trimmed]
    exact (List.dropWhile_suffix _).length_le
  have cut := (scan_suffix first rest).length_le
  rw [List.length_cons] at kept
  omega

/-- **The spans are those of the tokens**, in their order. -/
theorem map_token_spans (place : Nat) (cs : List Char) :
    (spans place cs).map Span.token = lex cs := by
  fun_induction spans place cs with
  | case1 place cs htrim => rw [lex_eq, htrim, List.map_nil]
  | case2 place cs first rest htrim start stop ih => rw [lex_eq, htrim, List.map_cons, ih]

/-- The place is in front of the token or behind it, and not between a call and
    its parenthesis. -/
def Span.Avoids (place : Nat) (span : Span) : Prop :=
  place ≤ span.start ∨ span.stop ≤ place ∧ (span.token.isCalled → span.stop ≠ place)

instance (place : Nat) : DecidablePred (Span.Avoids place) :=
  fun span => inferInstanceAs (Decidable (place ≤ span.start ∨
    span.stop ≤ place ∧ (span.token.isCalled → span.stop ≠ place)))

/-- No token is divided at this place, and no call from its parenthesis. -/
def Free (text : List Char) (place : Nat) : Prop :=
  ∀ span ∈ spans 0 text, span.Avoids place

instance (text : List Char) (place : Nat) : Decidable (Free text place) :=
  inferInstanceAs (Decidable (∀ span ∈ spans 0 text, span.Avoids place))

example : Free "² (\x7bA\x7d)".toList 1 ∧ ¬ Free "²(\x7bA\x7d)".toList 1 := by decide +kernel

/-- The text in front of the token. -/
def Span.front (text : List Char) (span : Span) : List Char := text.take span.start

/-- The characters of the token. -/
def Span.raw (text : List Char) (span : Span) : List Char :=
  (text.take span.stop).drop span.start

/-- The text behind the token. -/
def Span.back (text : List Char) (span : Span) : List Char := text.drop span.stop

variable {first : Char} {blanks cs front back raw rest : List Char} {t : Token}

theorem Leads.spans_eq (h : Leads blanks first raw t rest) (place : Nat) :
    spans place (blanks ++ first :: (raw ++ rest)) =
      ⟨t, place + blanks.length, place + (blanks.length + (raw.length + 1))⟩ ::
        spans (place + (blanks.length + (raw.length + 1))) rest := by
  have htrim : trimStart (blanks ++ first :: (raw ++ rest)) = first :: (raw ++ rest) := by
    rw [trimStart_blanks_append h.blank, trimStart_eq_self]
    rintro c hc
    cases hc
    exact h.starts
  have hstart : (blanks ++ first :: (raw ++ rest)).length - (first :: (raw ++ rest)).length =
      blanks.length := by
    rw [List.length_append, Nat.add_sub_cancel]
  have hstop : (blanks ++ first :: (raw ++ rest)).length - rest.length =
      blanks.length + (raw.length + 1) := by
    simp only [List.length_append, List.length_cons]
    omega
  rw [spans]
  split
  next hnil =>
    rw [htrim] at hnil
    cases hnil
  next first' rest' hcons =>
    rw [htrim] at hcons
    cases hcons
    simp only [h.scanned, hstart, hstop]

/-! ## Texts around a token -/

theorem Span.parts_eq (t : Token) (front raw rest : List Char) :
    let span : Span := ⟨t, front.length, front.length + raw.length⟩
    let text := front ++ (raw ++ rest)
    span.front text = front ∧ span.raw text = raw ∧ span.back text = rest := by
  simp [Span.front, Span.raw, Span.back, List.take_append, ← List.drop_drop]

/-- All tokens of a rest are its first one and those behind it. -/
theorem Leads.forall_mem_spans_iff (h : Leads blanks first raw t rest) (front : List Char)
    {text : List Char} (htext : text = front ++ (blanks ++ first :: (raw ++ rest)))
    (p : List Char → List Char → Token → List Char → Prop) :
    (∀ span ∈ spans front.length (blanks ++ first :: (raw ++ rest)),
        p (span.front text) (span.raw text) span.token (span.back text)) ↔
      p (front ++ blanks) (first :: raw) t rest ∧
        ∀ span ∈ spans (front ++ blanks ++ first :: raw).length rest,
          p (span.front text) (span.raw text) span.token (span.back text) := by
  obtain ⟨hfront, hraw, hback⟩ := Span.parts_eq t (front ++ blanks) (first :: raw) rest
  have hsame : front ++ blanks ++ (first :: raw ++ rest) = text := by simp [htext]
  have hspans : spans front.length (blanks ++ first :: (raw ++ rest)) =
      ⟨t, (front ++ blanks).length, (front ++ blanks).length + (first :: raw).length⟩ ::
        spans (front ++ blanks ++ first :: raw).length rest := by
    rw [h.spans_eq]
    simp only [List.length_append, List.length_cons, Nat.add_assoc]
  rw [hsame] at hfront hraw hback
  rw [hspans, List.forall_mem_cons, hfront, hraw, hback]

/-! ## Blanks at a place -/

/-- Blanks in a text look like its rest or like a blank to a token in front. -/
theorem replaces_insert (hblanks : ∀ c ∈ blanks, isBlank c) (front back : List Char) :
    Replaces (front ++ back) (front ++ (blanks ++ back)) := by
  refine Replaces.append ?_ front
  cases blanks with
  | nil => exact .inl rfl
  | cons c blanks => exact .inr (parts_cons (continues_of_isBlank (hblanks c List.mem_cons_self)) _)

theorem lex_insert_from (hblanks : ∀ c ∈ blanks, isBlank c) (place : Nat)
    (hcs : cs = front ++ back) (hvalid : ∀ t ∈ lex cs, Grammar.Valid t)
    (havoids : ∀ span ∈ spans place cs, span.Avoids (place + front.length)) :
    lex (front ++ (blanks ++ back)) = lex cs := by
  induction cs using lex_induction generalizing place front with
  | blank cs hblank =>
    have hall : ∀ c ∈ front ++ (blanks ++ back), isBlank c := by
      rw [hcs] at hblank
      simp only [List.forall_mem_append] at hblank ⊢
      exact ⟨hblank.1, hblanks, hblank.2⟩
    rw [lex_blanks hall, lex_blanks hblank]
  | token before first raw t rest hleads ih =>
    rw [hleads.spans_eq, List.forall_mem_cons] at havoids
    rw [hleads.lex_eq, List.forall_mem_cons] at hvalid
    obtain ⟨hfirst, hrest⟩ := havoids
    rcases hfirst with hbefore | ⟨hbehind, hcall⟩
    · -- the place is among the blanks in front of the token
      obtain ⟨more, rfl⟩ : front <+: before :=
        List.prefix_of_prefix_length_le ⟨back, hcs.symm⟩ ⟨_, rfl⟩ (by simpa using hbefore)
      obtain rfl : more ++ first :: (raw ++ rest) = back := by simpa using hcs
      have hall : ∀ c ∈ front ++ (blanks ++ more), isBlank c := by
        have hblank := hleads.blank
        simp only [List.forall_mem_append] at hblank ⊢
        exact ⟨hblank.1, hblanks, hblank.2⟩
      have hwhole : Leads (front ++ (blanks ++ more)) first raw t rest :=
        ⟨hall, hleads.starts, hleads.scanned⟩
      rw [hleads.lex_eq, ← hwhole.lex_eq]
      simp
    · -- the place is behind the token
      obtain ⟨more, rfl⟩ : before ++ first :: raw <+: front :=
        List.prefix_of_prefix_length_le ⟨rest, by simp⟩ ⟨back, hcs.symm⟩ (by simpa using hbehind)
      obtain rfl : rest = more ++ back := by simpa using hcs
      have hplace : place + (before ++ first :: raw ++ more).length =
          place + (before.length + (raw.length + 1)) + more.length := by
        simp only [List.length_append, List.length_cons]
        omega
      rw [hplace] at hrest
      have hinner := ih _ rfl hvalid.2 hrest
      have hcalled : t.isCalled → startsCall (more ++ (blanks ++ back)) := by
        intro h
        have hne : more ≠ [] := by
          rintro rfl
          exact hcall h (by simp)
        obtain ⟨c, more, rfl⟩ := List.exists_cons_of_ne_nil hne
        obtain ⟨_, hparen⟩ := startsCall_iff.1 (hleads.startsCall h)
        obtain ⟨rfl, -⟩ := List.cons_eq_cons.1 hparen
        exact startsCall_iff.2 ⟨_, rfl⟩
      have hwhole := (hleads.replaced hvalid.1 (replaces_insert hblanks more back) hcalled).lex_eq
      rw [hleads.lex_eq, ← hinner, ← hwhole]
      simp

/-- **Blanks in a free place change no word.** -/
theorem lex_insert (hblanks : ∀ c ∈ blanks, isBlank c)
    (hvalid : ∀ t ∈ lex (front ++ back), Grammar.Valid t) (hfree : Free (front ++ back) front.length) :
    lex (front ++ (blanks ++ back)) = lex (front ++ back) :=
  lex_insert_from hblanks 0 rfl hvalid (by simpa [Free] using hfree)

end Token

/-- **Blanks between the tokens of an expression make no difference.** -/
theorem Expr.parse_insert {limit : Nat} {front back : String} {e : Expr}
    (h : Expr.parse limit (front ++ back) = .ok e) {blanks : String}
    (hblanks : ∀ c ∈ blanks.toList, Text.isBlank c)
    (hfree : Token.Free (front ++ back).toList front.length) :
    Expr.parse limit (front ++ blanks ++ back) = .ok e := by
  have hnests := Grammar.parse_eq_ok_iff_nests.1 h
  rw [String.toList_append] at hnests hfree
  rw [← String.length_toList] at hfree
  rw [Grammar.parse_eq_ok_iff_nests, String.toList_append, String.toList_append, List.append_assoc,
    Token.lex_insert hblanks hnests.derives.valid hfree]
  exact hnests

/-- Blanks between a call and the power on it. -/
theorem Expr.parse_insert_rounded :
    let e : Expr := .binary .lessEqual (.exponent (.glyph .ceil (.reference "A" false)) 1)
      (.reference "B" false)
    Expr.parse 16 ("²(\x7bA\x7d)" ++ "¹<=\x7bB\x7d") = .ok e ∧
      (∀ c ∈ "\t\u3000".toList, Text.isBlank c) ∧
      Token.Free ("²(\x7bA\x7d)" ++ "¹<=\x7bB\x7d").toList "²(\x7bA\x7d)".length ∧
      Expr.parse 16 ("²(\x7bA\x7d)" ++ "\t\u3000" ++ "¹<=\x7bB\x7d") = .ok e := by
  intro e
  have hlex : Token.lex ("²(\x7bA\x7d)" ++ "¹<=\x7bB\x7d").toList =
      [.superscript .two true, .symbol .leftParen, .reference "A" false, .symbol .rightParen,
        .superscript .one false, .symbol .lessEqual, .reference "B" false] := by
    decide +kernel
  have hparse : Expr.parse 16 ("²(\x7bA\x7d)" ++ "¹<=\x7bB\x7d") = .ok e := by
    have hreference (c : Grammar.Category) (name : String) :
        Grammar.Derives c [.reference name false] (.reference name false) :=
      .loosen .reference (Nat.zero_le _)
    have hpower := Grammar.Derives.power (s := .one)
      (.base (.rounding (s := .two) (hreference _ "A")))
    have hcomparison := @Grammar.Derives.operation .lessEqual _ _ _ _
      (hpower.loosen (by decide)) (hreference _ "B")
    rw [Grammar.parse_eq_ok_iff_nests, hlex]
    exact (Grammar.derives_iff_nests (by decide)).1 (hcomparison.loosen (by decide))
  have hblanks : ∀ c ∈ "\t\u3000".toList, Text.isBlank c :=
    List.all_eq_true.1 (by decide +kernel)
  have hfree : Token.Free ("²(\x7bA\x7d)" ++ "¹<=\x7bB\x7d").toList "²(\x7bA\x7d)".length := by
    decide +kernel
  exact ⟨hparse, hblanks, hfree, Expr.parse_insert hparse hblanks hfree⟩

end ProductFormula
