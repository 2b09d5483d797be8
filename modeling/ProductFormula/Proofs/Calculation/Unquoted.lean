/-
  References of an unquoted text.

  The names that have to be bound are found without regard to words, but in a
  text without quotes they are those of the required references among its
  tokens, in the same order (`Token.requiredNames_eq_filterMap_lex`): a token is
  a reference, or leaves the braces of the text alone.

  * `mem_lex_of_missing`: a name that evaluation misses is one of them;
  * `unquoted_references`: hence a return of such a text misses none behind a
    check that passes, and a check that fails has one of them to name.
-/
import ProductFormula.Proofs.Calculation.Literals
import ProductFormula.Proofs.Expr.Causes
import ProductFormula.Proofs.Token.Surroundings

namespace ProductFormula

/-! ## Names among tokens -/

namespace Token

variable {cs inner rest : List Char} {first : Char} {t : Token}

/-- The name of a reference that has to be bound, if this is one. -/
def requiredName? : Token → Option String
  | reference referred false => some referred
  | _ => none

theorem requiredName?_eq_some_iff {referred : String} :
    t.requiredName? = some referred ↔ t = .reference referred false := by
  unfold requiredName?
  split
  · simp
  next hother =>
    constructor
    · exact nofun
    · exact fun heq => absurd heq (hother referred)

theorem mem_filterMap_requiredName? {ts : List Token} {referred : String} :
    referred ∈ ts.filterMap requiredName? ↔ .reference referred false ∈ ts := by
  simp [List.mem_filterMap, requiredName?_eq_some_iff]

theorem requiredName?_of_leaf? (h : t.leaf? = none) : t.requiredName? = none := by
  rw [Option.eq_none_iff_forall_ne_some]
  intro referred hsome
  rw [requiredName?_eq_some_iff.1 hsome] at h
  cases h

/-- A text requires what it encloses first, if the token is required. -/
theorem requiredNames_enclosing (h : '\x7d' ∉ inner) (rest : List Char) :
    requiredNames ('\x7b' :: (inner ++ '\x7d' :: rest)) =
      (ofReferenceText inner).requiredName?.toList ++ requiredNames rest := by
  unfold ofReferenceText
  split
  · rw [List.nil_append, requiredNames_lone (.inl rfl), requiredNames_plain (by decide)]
    rfl
  next name =>
    have hname : '\x7d' ∉ name := fun hmem => h (List.mem_cons_of_mem _ hmem)
    rw [requiredNames_caret hname]
    split <;> rfl
  next hne hcaret =>
    have hhead : inner.head? ≠ some '^' := by
      intro hhead
      obtain ⟨name, rfl⟩ := List.head?_eq_some_iff.1 hhead
      exact hcaret name rfl
    rw [requiredNames_braced hne h hhead]
    rfl

/-- What an opening brace starts takes from a text what it requires itself. -/
theorem requiredNames_scanReference (cs : List Char) :
    requiredNames ('\x7b' :: cs) =
      (scanReference cs).1.requiredName?.toList ++ requiredNames (scanReference cs).2 := by
  by_cases hclosing : '\x7d' ∈ cs
  · obtain ⟨inner, rest, rfl, hinner⟩ := List.eq_append_cons_of_mem hclosing
    rw [scanReference_closing hinner, requiredNames_enclosing hinner]
  · -- the token takes all of the text, and none of it is a reference
    rw [scanReference_unclosed hclosing, requiredNames_unclosed (by simpa using hclosing),
      requiredNames_nil]
    rfl

/-- Any other token but a string requires nothing. -/
theorem requiredNames_scan_plain (hreference : first ≠ '\x7b') (hdouble : first ≠ '"')
    (hsingle : first ≠ '\'') (cs : List Char) :
    requiredNames (first :: cs) = requiredNames (scan first cs).2 := by
  have hfilter := (plain_scan hreference hdouble hsingle cs).filter
  obtain ⟨raw, hraw⟩ := scan_suffix first cs
  rw [← hraw, List.filter_append, hraw, List.self_eq_append_left] at hfilter
  rw [requiredNames_plain hreference, ← hraw, requiredNames_braceless_append hfilter, hraw]

/-- **A token other than a string takes from a text what it requires itself.** -/
theorem requiredNames_scan (hdouble : first ≠ '"') (hsingle : first ≠ '\'') (cs : List Char) :
    requiredNames (first :: cs) =
      (scan first cs).1.requiredName?.toList ++ requiredNames (scan first cs).2 := by
  by_cases hreference : first = '\x7b'
  · subst hreference
    exact requiredNames_scanReference cs
  · have hleaf := (plain_scan hreference hdouble hsingle cs).leaf
    rw [requiredNames_scan_plain hreference hdouble hsingle, requiredName?_of_leaf? hleaf,
      Option.toList_none, List.nil_append]

/-- **A text without quotes requires the required references among its tokens**,
    in their order. -/
theorem requiredNames_eq_filterMap_lex (hdouble : '"' ∉ cs) (hsingle : '\'' ∉ cs) :
    requiredNames cs = (lex cs).filterMap requiredName? := by
  induction cs using lex_induction with
  | blank cs hblank =>
    have hclosing : '\x7d' ∉ cs := fun hmem => Bool.false_ne_true (hblank _ hmem)
    rw [lex_blanks hblank, requiredNames_unclosed hclosing, List.filterMap_nil]
  | token blanks first raw t rest hleads ih =>
    simp only [List.mem_append, List.mem_cons, not_or] at hdouble hsingle
    obtain ⟨-, hdouble, -, hdoubleRest⟩ := hdouble
    obtain ⟨-, hsingle, -, hsingleRest⟩ := hsingle
    rw [hleads.lex_eq, hleads.requiredNames_eq,
      requiredNames_scan (Ne.symm hdouble) (Ne.symm hsingle), hleads.scanned,
      ih hdoubleRest hsingleRest, List.filterMap_cons]
    cases t.requiredName? <;> rfl

example : requiredNames "\x7b\x7d+\x7b^\x7d \x7bA\x7d&\x7d \x7bB".toList = ["A"] := by decide +kernel

end Token

/-! ## Names that are missing -/

open Calculation

variable {maxDepth : Nat} {ctx : Context} {text : List Char} {name : String}

theorem resolve_eq_missing_iff : ctx.resolve name false = .error (.missingVariable name) ↔
    ctx.env.get? (ctx.lookupName name) = none := by
  cases hget : ctx.env.get? (ctx.lookupName name) <;> simp [Context.resolve, hget]

/-- The parser looks no name up. -/
theorem parse_ne_missing (limit : Nat) (text name : String) :
    Expr.parse limit text ≠ .error (.missingVariable name) := by
  unfold Expr.parse
  split
  · exact nofun
  · exact nofun
  next failure _ => cases failure <;> exact nofun

/-- A name that evaluation misses is a required reference among the tokens. -/
theorem mem_lex_of_missing
    (h : evaluateText maxDepth ctx text = .error (.missingVariable name)) :
    .reference name false ∈ Token.lex text ∧ ctx.env.get? (ctx.lookupName name) = none := by
  rcases bind_eq_error.1 h with hparse | ⟨e, hparse, hevaluate⟩
  · exact absurd hparse (parse_ne_missing _ _ _)
  · have hderives := (Grammar.parse_eq_ok_iff_nests.1 hparse).derives
    rw [String.toList_ofList] at hderives
    cases Expr.failsWith_evaluate e (List.Subset.refl _) _ hevaluate with
    | unbound hmem hnone =>
      exact ⟨(hderives.mem_leaves_iff rfl).1 (Expr.mem_leaves_of_mem_nodes e hmem), hnone⟩

/-- **On a text without quotes the check of references and the parser see the
    same**: the names that have to be bound are those of the required references
    among the tokens.  Hence a return of the text whose names are bound misses
    none, and one whose check fails has a required reference that is not bound. -/
theorem unquoted_references (hdouble : '"' ∉ text) (hsingle : '\'' ∉ text) :
    requiredNames text = (Token.lex text).filterMap Token.requiredName? ∧
      (text.head? ≠ some '#' → ∀ maxDepth ctx,
        (checkBound ctx (requiredNames ('=' :: text)) = .ok () → ∀ name,
          perform maxDepth ctx (.ofText ('=' :: text)) ≠ .error (.missingVariable name)) ∧
        ∀ error, checkBound ctx (requiredNames ('=' :: text)) = .error error →
          ∃ name, .reference name false ∈ Token.lex text ∧
            ctx.env.get? (ctx.lookupName name) = none ∧ error = .missingVariable name) := by
  have hnames := Token.requiredNames_eq_filterMap_lex hdouble hsingle
  refine ⟨hnames, fun hhash maxDepth ctx => ?_⟩
  rw [requiredNames_plain (by decide), hnames, Statement.ofText_returnValue hhash]
  constructor
  · intro hcheck name hperform
    rcases bind_eq_error.1 hperform with hmissing | ⟨_, -, hreturn⟩
    · obtain ⟨hmem, hnone⟩ := mem_lex_of_missing hmissing
      obtain ⟨v, hv⟩ :=
        checkBound_eq_ok_iff.1 hcheck name (Token.mem_filterMap_requiredName?.2 hmem)
      cases hv.symm.trans (resolve_eq_missing_iff.2 hnone)
    · cases hreturn
  · intro error hcheck
    obtain ⟨name, hmem, hresolve, rfl⟩ := checkBound_eq_error hcheck
    exact ⟨name, Token.mem_filterMap_requiredName?.1 hmem, resolve_eq_missing_iff.1 hresolve, rfl⟩

/-- A name with a brace in it, and one that may be missing. -/
theorem unquoted_references_nested :
    let text := "\x7ba\x7b.b\x7d²+\x7b^Y\x7d".toList
    let bound : Context := ⟨.ofList [("a\x7bb", .boolean true)], true⟩
    let unbound : Context := ⟨.empty, true⟩
    ('"' ∉ text ∧ '\'' ∉ text ∧ text.head? ≠ some '#') ∧
      (requiredNames text = (Token.lex text).filterMap Token.requiredName? ∧
        requiredNames text = ["a\x7b.b"]) ∧
      (checkBound bound (requiredNames ('=' :: text)) = .ok () ∧
        ∀ name, perform 128 bound (.ofText ('=' :: text)) ≠ .error (.missingVariable name)) ∧
      checkBound unbound (requiredNames ('=' :: text)) = .error (.missingVariable "a\x7b.b") ∧
      ∃ name, .reference name false ∈ Token.lex text ∧
        unbound.env.get? (unbound.lookupName name) = none ∧
        Error.missingVariable "a\x7b.b" = .missingVariable name := by
  intro text bound unbound
  have hdouble : '"' ∉ text := by decide
  have hsingle : '\'' ∉ text := by decide
  have hhash : text.head? ≠ some '#' := by decide
  have hbound : checkBound bound (requiredNames ('=' :: text)) = .ok () := by decide +kernel
  have hunbound : checkBound unbound (requiredNames ('=' :: text)) =
      .error (.missingVariable "a\x7b.b") := by decide +kernel
  obtain ⟨hnames, hreturn⟩ := unquoted_references hdouble hsingle
  exact ⟨⟨hdouble, hsingle, hhash⟩, ⟨hnames, by decide +kernel⟩,
    ⟨hbound, (hreturn hhash 128 bound).1 hbound⟩, hunbound, (hreturn hhash 128 unbound).2 _ hunbound⟩

end ProductFormula
