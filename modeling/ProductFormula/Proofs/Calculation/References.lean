/-
  References of a statement that is completed.

  A statement does something only when every reference that its text requires
  is bound.  The names that a text requires are found without the parser, and
  they take in those of the parsed expression as long as no brace stays open in
  front of it or in one of its strings (`resolves_of_completes`).

  A brace that does stay open hides the next reference: it is read as part of
  one that starts at that brace (`unresolved_of_open_string`), and an operand
  that is not evaluated then needs no value.
-/
import ProductFormula.Proofs.Calculation.Forms
import ProductFormula.Proofs.Calculation.Steps
import ProductFormula.Proofs.Grammar.Acceptance
import ProductFormula.Proofs.Reference.Tokens

namespace ProductFormula

open Calculation

/-! ## The check of references -/

theorem checkBound_eq_ok_iff {ctx : Context} {names : List String} :
    checkBound ctx names = .ok () ↔ ∀ name ∈ names, ∃ v, ctx.resolve name false = .ok v := by
  induction names with
  | nil => simp [checkBound]
  | cons name names ih =>
    rw [checkBound, bind_eq_ok, List.forall_mem_cons, ← ih]
    exact ⟨fun ⟨v, hname, hrest⟩ => ⟨⟨v, hname⟩, hrest⟩, fun ⟨⟨v, hname⟩, hrest⟩ => ⟨v, hname, hrest⟩⟩

/-- The text of a statement requires what the text of its expression does. -/
theorem requiredNames_expression {s expression : List Char}
    (h : (Statement.ofText s).expression? = some expression)
    (htarget : ClosesBraces (Statement.ofText s).target) :
    ∀ name ∈ requiredNames expression, name ∈ requiredNames s := by
  intro name hname
  obtain ⟨front, hs, hbraces⟩ := Statement.exists_front h
  have hfront : ClosesBraces front := by rwa [ClosesBraces, hbraces]
  rw [hs, requiredNames_append hfront]
  exact List.mem_append_right _ hname

/-- A text requires the required references of the tree that it is parsed to. -/
theorem mem_requiredNames_of_parse {limit : Nat} {expression : List Char} {e : Expr}
    (h : Expr.parse limit (.ofList expression) = .ok e)
    (hstrings : ∀ text, .string text ∈ e.leaves → ClosesBraces text.toList) {name : String}
    (hname : .reference name false ∈ e.leaves) : name ∈ requiredNames expression := by
  have hderives := (Grammar.parse_eq_ok_iff_nests.1 h).derives
  rw [String.toList_ofList] at hderives
  refine Token.mem_requiredNames_of_lex hderives.valid (fun text htext => ?_) ?_
  · exact hstrings text ((hderives.mem_leaves_iff rfl).2 htext)
  · exact (hderives.mem_leaves_iff rfl).1 hname

/-! ## Completed statements -/

/-- The calculation of the formula comes to this statement in this environment,
    and the statement does not fail. -/
structure Completes (options : Options) (formula : String) (env : Environment)
    (s : List Char) (env' : Environment) : Prop where
  reached : ∃ front rest, statements (sourceOf formula.toList) = front ++ s :: rest ∧
    Passes options 1 env front env'
  completed : ∃ x, effect options env' s = .ok x

variable {options : Options} {formula : String} {env env' : Environment}
  {s expression : List Char}

/-- The expression of a completed statement has been parsed. -/
theorem Completes.exists_parse (h : Completes options formula env s env')
    (hexpression : (Statement.ofText s).expression? = some expression) :
    ∃ e, Expr.parse options.maxDepth (.ofList expression) = .ok e := by
  obtain ⟨x, hx⟩ := h.completed
  have hperforms := performs_of_effect hx
  have hvalue : ∃ v, evaluateText options.maxDepth ⟨env', options.stripDots⟩ expression = .ok v := by
    generalize Statement.ofText s = statement at hexpression hperforms
    cases hperforms with
    | returnText | other => cases hexpression
    | returnValue hv | assignment hv =>
      cases hexpression
      exact ⟨_, hv⟩
  obtain ⟨v, hv⟩ := hvalue
  obtain ⟨e, he, -⟩ := bind_eq_ok.1 hv
  exact ⟨e, he⟩

/-- **Every required reference of a completed statement is bound**, evaluated or
    not, if the assigned name and the strings of the expression close their
    braces. -/
theorem resolves_of_completes (h : Completes options formula env s env')
    (hexpression : (Statement.ofText s).expression? = some expression)
    (htarget : ClosesBraces (Statement.ofText s).target) :
    ∃ e, Expr.parse options.maxDepth (.ofList expression) = .ok e ∧
      ((∀ text, .string text ∈ e.leaves → ClosesBraces text.toList) →
        ∀ name, .reference name false ∈ e.leaves →
          ∃ v, (⟨env', options.stripDots⟩ : Context).resolve name false = .ok v) := by
  obtain ⟨e, he⟩ := h.exists_parse hexpression
  refine ⟨e, he, fun hstrings name hname => ?_⟩
  obtain ⟨x, hx⟩ := h.completed
  obtain ⟨_, hcheck, -⟩ := bind_eq_ok.1 hx
  have hrequired := mem_requiredNames_of_parse he hstrings hname
  exact checkBound_eq_ok_iff.1 hcheck name (requiredNames_expression hexpression htarget _ hrequired)

/-! ## An operand that is not evaluated -/

/-- `true || "text" + {name}` -/
def skipping (text name : String) : Expr :=
  .binary .or (.boolean true) (.binary .add (.string text) (.reference name false))

theorem parse_skipping {text name : String}
    (h : Token.lex expression = [.name "true", .symbol .or, .string text, .symbol .plus,
      .reference name false]) :
    Expr.parse 128 (.ofList expression) = .ok (skipping text name) := by
  have htrue (t : Parser.Tier) : Grammar.Derives (.tier t) [.name "true"] (.boolean true) :=
    .loosen .trueWord (Nat.zero_le _)
  have htext (t : Parser.Tier) : Grammar.Derives (.tier t) [.string text] (.string text) :=
    .loosen .string (Nat.zero_le _)
  have hname (t : Parser.Tier) :
      Grammar.Derives (Grammar.operands t) [.reference name false] (.reference name false) :=
    .loosen .reference (Nat.zero_le _)
  have hsum := @Grammar.Derives.operation .add _ _ _ _ (htext _) (hname _)
  have hor := @Grammar.Derives.operation .or _ _ _ _ (htrue _) (hsum.loosen (by decide))
  rw [Grammar.parse_eq_ok_iff_nests, String.toList_ofList, h]
  exact (Grammar.derives_iff_nests (by simp)).1 (.plain hor)

/-- `true || "}" + {N}` needs a value for `N`. -/
theorem resolves_skipped :
    Completes {} "[N] = 1;=true || \"\x7d\" + \x7bN\x7d" .empty
        "=true || \"\x7d\" + \x7bN\x7d".toList (.ofList [("N", .number (.ofNat 1))]) ∧
      ∃ v, (⟨.ofList [("N", .number (.ofNat 1))], true⟩ : Context).resolve "N" false = .ok v := by
  have hcompletes : Completes {} "[N] = 1;=true || \"\x7d\" + \x7bN\x7d" .empty
      "=true || \"\x7d\" + \x7bN\x7d".toList (.ofList [("N", .number (.ofNat 1))]) := by
    constructor
    · exact ⟨["[N] = 1".toList], [], by decide +kernel, by decide +kernel, by decide +kernel⟩
    · exact ⟨.returns (.boolean true), by decide +kernel⟩
  have hexpression : (Statement.ofText "=true || \"\x7d\" + \x7bN\x7d".toList).expression? =
      some "true || \"\x7d\" + \x7bN\x7d".toList := by decide +kernel
  obtain ⟨e, he, hresolves⟩ := resolves_of_completes hcompletes hexpression (by decide +kernel)
  have hparse : Expr.parse 128 (.ofList "true || \"\x7d\" + \x7bN\x7d".toList) =
      .ok (skipping "\x7d" "N") := parse_skipping (by decide +kernel)
  cases he.symm.trans hparse
  refine ⟨hcompletes, hresolves ?_ "N" (by simp [skipping, Expr.leaves])⟩
  simp only [skipping, Expr.leaves, List.mem_append, List.mem_singleton, reduceCtorEq,
    Expr.string.injEq, false_or, or_false, forall_eq]
  decide

/-- The brace in the string of `true || "{^" + {X}` hides `X`, which is not
    bound. -/
theorem unresolved_of_open_string :
    Completes {} "=true || \"\x7b^\" + \x7bX\x7d" .empty
        "=true || \"\x7b^\" + \x7bX\x7d".toList .empty ∧
      (calculate {} "=true || \"\x7b^\" + \x7bX\x7d" .empty).record.result =
        some (.boolean true) ∧
      (Statement.ofText "=true || \"\x7b^\" + \x7bX\x7d".toList).expression? =
        some "true || \"\x7b^\" + \x7bX\x7d".toList ∧
      (∃ e, Expr.parse 128 "true || \"\x7b^\" + \x7bX\x7d" = .ok e ∧
        .reference "X" false ∈ e.leaves) ∧
      (⟨.empty, true⟩ : Context).resolve "X" false = .error (.missingVariable "X") := by
  have hcompletes : Completes {} "=true || \"\x7b^\" + \x7bX\x7d" .empty
      "=true || \"\x7b^\" + \x7bX\x7d".toList .empty := by
    constructor
    · exact ⟨[], [], by decide +kernel, passes_nil _ _ _⟩
    · exact ⟨.returns (.boolean true), by decide +kernel⟩
  have hlex : Token.lex "true || \"\x7b^\" + \x7bX\x7d".toList = [.name "true", .symbol .or,
      .string "\x7b^", .symbol .plus, .reference "X" false] := by decide +kernel
  have hparse := parse_skipping hlex
  rw [String.ofList_toList] at hparse
  refine ⟨hcompletes, by decide +kernel, by decide +kernel, ⟨_, hparse, ?_⟩, by decide +kernel⟩
  simp [skipping, Expr.leaves]

end ProductFormula
