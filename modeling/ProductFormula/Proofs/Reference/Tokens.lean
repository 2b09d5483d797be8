/-
  References among tokens.

  A token is cut from the characters it is written with, and these hold no
  braces, save those of a reference, of a string's content, and of what is no
  word (`Token.Written`, `Token.cuts_scan`).

  * `Token.encloses_of_mem_lex`: the reference of a token stands between braces
    of the text;
  * `Token.mem_requiredNames_of_lex`: where every string closes its braces, the
    names that a text requires take in those of the required references among
    its tokens.
-/
import ProductFormula.Proofs.Expr.Leaves
import ProductFormula.Proofs.Reference.Braces
import ProductFormula.Proofs.Token.Surroundings

namespace ProductFormula.Token

/-! ## Characters without braces -/

theorem isBrace_of_isNamePart {c : Char} (h : isNamePart c) : isBrace c = false := by
  rw [isBrace_eq_false_iff]
  constructor
  · rintro rfl
    cases h
  · rintro rfl
    cases h

theorem isBrace_of_isDigit {c : Char} (h : c.isDigit) : isBrace c = false :=
  isBrace_of_isNamePart (by simp [isNamePart, Char.isAlphanum, h])

theorem filter_dropWhile {p : Char → Bool} (hp : ∀ c, p c → isBrace c = false) (cs : List Char) :
    (cs.dropWhile p).filter isBrace = cs.filter isBrace := by
  induction cs with
  | nil => rfl
  | cons c cs ih =>
    rw [List.dropWhile_cons]
    split
    next hc => rw [ih, List.filter_cons_of_neg (by simp [hp c hc])]
    · rfl

theorem filter_digits (cs : List Char) :
    (Text.splitWhile Char.isDigit cs).2.filter isBrace = cs.filter isBrace :=
  filter_dropWhile (fun _ => isBrace_of_isDigit) cs

theorem filter_spanFraction (cs : List Char) :
    (spanFraction cs).2.filter isBrace = cs.filter isBrace := by
  unfold spanFraction
  split
  · exact filter_digits _
  · rfl

theorem filter_spanSign (cs : List Char) : (spanSign cs).2.filter isBrace = cs.filter isBrace := by
  unfold spanSign
  split <;> rfl

theorem filter_spanExponent (cs : List Char) :
    (spanExponent cs).2.filter isBrace = cs.filter isBrace := by
  unfold spanExponent
  split
  · rfl
  next mark cs =>
    split
    next hmark =>
      have hbrace : isBrace mark = false := by
        rcases hmark with rfl | rfl
        · rfl
        · rfl
      rw [List.filter_cons_of_neg (by simp [hbrace])]
      exact (filter_digits _).trans (filter_spanSign cs)
    · rfl

theorem filter_spanMantissa (first : Char) (cs : List Char) :
    (spanMantissa first cs).2.filter isBrace = cs.filter isBrace := by
  unfold spanMantissa
  split
  · exact filter_digits cs
  · exact (filter_spanFraction _).trans (filter_digits cs)

theorem filter_spanNumber (first : Char) (cs : List Char) :
    (spanNumber first cs).2.filter isBrace = cs.filter isBrace :=
  (filter_spanExponent _).trans (filter_spanMantissa first cs)

/-! ## What a token is written with -/

/-- These characters are a way to write the token, as far as braces go. -/
inductive Written : List Char → Token → Prop
  | reference {inner} : '\x7d' ∉ inner →
      Written ('\x7b' :: (inner ++ ['\x7d'])) (ofReferenceText inner)
  | string {raw s} : raw.filter isBrace = s.toList.filter isBrace → Written raw (.string s)
  | braceless {raw t} : raw.filter isBrace = [] → t.leaf? = none → Written raw t
  | invalid {raw fault} : Written raw (.invalid fault)

theorem Written.reference_inv {raw : List Char} {referred : String} {optional : Bool}
    (h : Written raw (.reference referred optional)) :
    ∃ inner, '\x7d' ∉ inner ∧ raw = '\x7b' :: (inner ++ ['\x7d']) ∧
      ofReferenceText inner = .reference referred optional := by
  generalize ht : Token.reference referred optional = t at h
  cases h with
  | @reference inner hinner => exact ⟨inner, hinner, rfl, rfl⟩
  | string => cases ht
  | braceless _ hleaf => cases ht ▸ hleaf
  | invalid => cases ht

theorem Written.closesBraces {raw : List Char} {t : Token} (h : Written raw t)
    (hvalid : Grammar.Valid t) (hstring : ∀ s, t = .string s → ClosesBraces s.toList) :
    ClosesBraces raw := by
  cases h with
  | @reference inner => exact closesBraces_concat ('\x7b' :: inner)
  | string hbraces =>
    rw [ClosesBraces, hbraces]
    exact hstring _ rfl
  | braceless hnone => exact closesBraces_of_filter hnone
  | invalid => exact hvalid.elim

/-- A required reference is written without a caret. -/
theorem ofReferenceText_eq_required {inner : List Char} {referred : String}
    (h : ofReferenceText inner = .reference referred false) :
    inner ≠ [] ∧ inner.head? ≠ some '^' ∧ referred = .ofList inner := by
  unfold ofReferenceText at h
  split at h
  · cases h
  · split at h <;> cases h
  next hnil hcaret =>
    cases h
    refine ⟨hnil, fun hhead => ?_, rfl⟩
    obtain ⟨tail, htail⟩ := List.head?_eq_some_iff.1 hhead
    exact hcaret tail htail

/-- What is cut off in front of `rest` writes the token. -/
def Cuts (cs : List Char) (t : Token) (rest : List Char) : Prop :=
  ∃ raw, cs = raw ++ rest ∧ Written raw t

/-- A cut that leaves all braces behind it. -/
theorem cuts_of_filter {first : Char} {cs rest : List Char} {t : Token}
    (hfirst : isBrace first = false) (hsuffix : rest <:+ cs)
    (hfilter : rest.filter isBrace = cs.filter isBrace) (ht : t.leaf? = none) :
    Cuts (first :: cs) t rest := by
  obtain ⟨front, rfl⟩ := hsuffix
  refine ⟨first :: front, rfl, .braceless ?_ ht⟩
  rw [List.filter_append, List.self_eq_append_left] at hfilter
  rw [List.filter_cons_of_neg (by simp [hfirst]), hfilter]

theorem cuts_invalid {cs rest : List Char} {fault : LexicalFault} (hsuffix : rest <:+ cs) :
    Cuts cs (.invalid fault) rest := by
  obtain ⟨front, rfl⟩ := hsuffix
  exact ⟨front, rfl, .invalid⟩

theorem scanReference_closing {inner : List Char} (h : '\x7d' ∉ inner) (rest : List Char) :
    scanReference (inner ++ '\x7d' :: rest) = (ofReferenceText inner, rest) := by
  rw [scanReference, Text.splitWhile_ne_append h]

theorem scanReference_unclosed {cs : List Char} (h : '\x7d' ∉ cs) :
    scanReference cs = (.invalid .unterminatedReference, []) := by
  rw [scanReference, Text.splitWhile_ne_of_not_mem h]

theorem cuts_scanReference (cs : List Char) :
    Cuts ('\x7b' :: cs) (scanReference cs).1 (scanReference cs).2 := by
  by_cases hclosing : '\x7d' ∈ cs
  · obtain ⟨inner, rest, rfl, hinner⟩ := List.eq_append_cons_of_mem hclosing
    rw [scanReference_closing hinner]
    exact ⟨_, by simp, .reference hinner⟩
  · rw [scanReference_unclosed hclosing]
    exact cuts_invalid List.nil_suffix

theorem filter_unescape (c : Char) (cs : List Char) :
    (unescape c :: cs).filter isBrace = (c :: cs).filter isBrace := by
  unfold unescape
  split <;> rfl

/-- The content of a string has the braces of the characters it is written
    with, in their order. -/
theorem filter_stringContent? {quote : Char} (hquote : isBrace quote = false)
    {cs content rest : List Char} (h : stringContent? quote cs = some (content, rest)) :
    ∃ raw, cs = raw ++ rest ∧ raw.filter isBrace = content.filter isBrace := by
  fun_induction stringContent? quote cs generalizing content with
  | case1 => cases h
  | case2 cs =>
    cases h
    exact ⟨[quote], rfl, by simp [hquote]⟩
  | case3 => cases h
  | case4 escaped cs _ ih =>
    obtain ⟨⟨inner, after⟩, found, same⟩ := Option.map_eq_some_iff.1 h
    cases same
    obtain ⟨raw, rfl, hraw⟩ := ih found
    refine ⟨'\\' :: escaped :: raw, rfl, ?_⟩
    rw [filter_unescape, List.filter_cons_of_neg (by decide), List.filter_cons, List.filter_cons,
      hraw]
  | case5 c cs _ _ ih =>
    obtain ⟨⟨inner, after⟩, found, same⟩ := Option.map_eq_some_iff.1 h
    cases same
    obtain ⟨raw, rfl, hraw⟩ := ih found
    exact ⟨c :: raw, rfl, by rw [List.filter_cons, List.filter_cons, hraw]⟩

theorem cuts_scanString {quote : Char} (hquote : isBrace quote = false) (cs : List Char) :
    Cuts (quote :: cs) (scanString quote cs).1 (scanString quote cs).2 := by
  unfold scanString
  split
  next content rest h =>
    obtain ⟨raw, rfl, hraw⟩ := filter_stringContent? hquote h
    refine ⟨quote :: raw, rfl, .string ?_⟩
    rw [List.filter_cons_of_neg (by simp [hquote]), hraw, String.toList_ofList]
  · exact cuts_invalid List.nil_suffix

/-! ### Words of their own -/

/-- Cut off is no string and no reference, and all braces are left behind it. -/
structure Plain (cs : List Char) (cut : Token × List Char) : Prop where
  leaf : cut.1.leaf? = none
  filter : cut.2.filter isBrace = cs.filter isBrace

theorem plain_scanThree (cs : List Char) : Plain cs (scanThree cs) := by
  unfold scanThree
  split <;> exact ⟨rfl, rfl⟩

theorem plain_scanEquals (cs : List Char) : Plain cs (scanEquals cs) := by
  unfold scanEquals
  split <;> exact ⟨rfl, rfl⟩

theorem plain_scanBang (cs : List Char) : Plain cs (scanBang cs) := by
  unfold scanBang
  split <;> exact ⟨rfl, rfl⟩

theorem plain_scanOrEqual (orEqual plain : Symbol) (cs : List Char) :
    Plain cs (scanOrEqual orEqual plain cs) := by
  unfold scanOrEqual
  split <;> exact ⟨rfl, rfl⟩

theorem plain_scanDouble {c : Char} (hc : isBrace c = false) (double : Symbol)
    (lone : LexicalFault) (cs : List Char) : Plain cs (scanDouble c double lone cs) := by
  unfold scanDouble
  split
  · exact ⟨rfl, rfl⟩
  · split
    next heq =>
      subst heq
      exact ⟨rfl, by rw [List.filter_cons_of_neg (by simp [hc])]⟩
    · exact ⟨rfl, rfl⟩

theorem plain_scanWord (first : Char) (cs : List Char) : Plain cs (scanWord first cs) := by
  unfold scanWord
  split
  · refine ⟨?_, filter_spanNumber first cs⟩
    dsimp only
    unfold ofNumberText
    split <;> rfl
  · split
    · exact ⟨rfl, filter_dropWhile (fun _ => isBrace_of_isNamePart) cs⟩
    · exact ⟨rfl, rfl⟩

/-- Only references and strings take braces from the text behind their first
    character. -/
theorem plain_scan {first : Char} (hreference : first ≠ '\x7b') (hdouble : first ≠ '"')
    (hsingle : first ≠ '\'') (cs : List Char) : Plain cs (scan first cs) := by
  unfold scan
  split
  · exact ⟨rfl, rfl⟩
  · split
    · exact ⟨rfl, rfl⟩
    · exact ⟨rfl, rfl⟩
    · exact plain_scanThree cs
    · exact ⟨rfl, rfl⟩
    · exact ⟨rfl, rfl⟩
    · exact ⟨rfl, rfl⟩
    · exact plain_scanEquals cs
    · exact plain_scanBang cs
    · exact plain_scanOrEqual _ _ cs
    · exact plain_scanOrEqual _ _ cs
    · exact plain_scanDouble rfl _ _ cs
    · exact plain_scanDouble rfl _ _ cs
    · exact absurd rfl hreference
    · exact absurd rfl hdouble
    · exact absurd rfl hsingle
    · exact plain_scanWord first cs

/-- **A token is cut from characters that write it.** -/
theorem cuts_scan (first : Char) (cs : List Char) :
    Cuts (first :: cs) (scan first cs).1 (scan first cs).2 := by
  by_cases hreference : first = '\x7b'
  · subst hreference
    exact cuts_scanReference cs
  by_cases hdouble : first = '"'
  · subst hdouble
    exact cuts_scanString rfl cs
  by_cases hsingle : first = '\''
  · subst hsingle
    exact cuts_scanString rfl cs
  by_cases hclosing : first = '\x7d'
  · subst hclosing
    exact cuts_invalid (List.suffix_cons _ _)
  have hplain := plain_scan hreference hdouble hsingle cs
  exact cuts_of_filter (isBrace_eq_false_iff.2 ⟨hreference, hclosing⟩) (scan_suffix first cs)
    hplain.filter hplain.leaf

section

variable {blanks raw rest : List Char} {first : Char} {t : Token}

/-- The first token of a text is written with what is cut off. -/
theorem Leads.written (h : Leads blanks first raw t rest) : Written (first :: raw) t := by
  obtain ⟨raw', hraw, hwritten⟩ := cuts_scan first (raw ++ rest)
  rw [h.scanned] at hraw hwritten
  rw [← List.cons_append] at hraw
  rwa [List.append_cancel_right hraw]

/-- The blanks in front of a token require nothing. -/
theorem Leads.requiredNames_eq (h : Leads blanks first raw t rest) :
    requiredNames (blanks ++ first :: (raw ++ rest)) = requiredNames (first :: (raw ++ rest)) :=
  requiredNames_braceless_append
    (filter_isBrace_eq_nil fun c hc => isBrace_of_isBlank (h.blank c hc)) _

end

/-! ## References of a text -/

variable {cs : List Char} {referred : String}

/-- **A reference among the tokens stands between braces of the text.** -/
theorem encloses_of_mem_lex {optional : Bool} (h : .reference referred optional ∈ lex cs) :
    ∃ inner, Encloses cs inner ∧ ofReferenceText inner = .reference referred optional := by
  induction cs using lex_induction with
  | blank cs hblank =>
    rw [lex_blanks hblank] at h
    cases h
  | token blanks first raw t rest hleads ih =>
    rw [hleads.lex_eq] at h
    rcases List.mem_cons.1 h with rfl | h
    · obtain ⟨inner, hinner, hraw, htoken⟩ := hleads.written.reference_inv
      have henclosed : Encloses (first :: (raw ++ rest)) inner := by
        rw [← List.cons_append, hraw, List.cons_append, List.append_assoc, List.singleton_append]
        exact encloses_front hinner _
      exact ⟨inner, henclosed.mono (List.suffix_append _ _).isInfix, htoken⟩
    · obtain ⟨inner, hinner, htoken⟩ := ih h
      have hrest : rest <:+ blanks ++ first :: (raw ++ rest) :=
        ⟨blanks ++ first :: raw, by simp⟩
      exact ⟨inner, hinner.mono hrest.isInfix, htoken⟩

/-- **A text requires every required reference among its tokens**, if they are
    words and every string closes its braces. -/
theorem mem_requiredNames_of_lex (hvalid : ∀ t ∈ lex cs, Grammar.Valid t)
    (hstrings : ∀ s, .string s ∈ lex cs → ClosesBraces s.toList)
    (h : .reference referred false ∈ lex cs) : referred ∈ requiredNames cs := by
  induction cs using lex_induction with
  | blank cs hblank =>
    rw [lex_blanks hblank] at h
    cases h
  | token blanks first raw t rest hleads ih =>
    rw [hleads.lex_eq] at hvalid hstrings h
    have hcloses : ClosesBraces (first :: raw) :=
      hleads.written.closesBraces (hvalid _ List.mem_cons_self)
        fun s hs => hstrings s (hs ▸ List.mem_cons_self)
    -- the text is cut into blanks, the token and the rest, each closed
    rw [hleads.requiredNames_eq, ← List.cons_append, requiredNames_append hcloses, List.mem_append]
    rcases List.mem_cons.1 h with rfl | h
    · obtain ⟨inner, hinner, hraw, htoken⟩ := hleads.written.reference_inv
      obtain ⟨hne, hcaret, rfl⟩ := ofReferenceText_eq_required htoken
      rw [hraw, requiredNames_braced hne hinner hcaret]
      exact .inl List.mem_cons_self
    · refine .inr (ih (fun t ht => ?_) (fun s hs => ?_) h)
      · exact hvalid t (List.mem_cons_of_mem _ ht)
      · exact hstrings s (List.mem_cons_of_mem _ hs)

end ProductFormula.Token
