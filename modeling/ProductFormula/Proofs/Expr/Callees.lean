/-
  The functions that calls find.

  A call of a tree carries the canonical form of the name that is written, and a
  registry looks for the canonical form of the name that it is given.  The
  second step changes nothing: the canonical form of a name is its own canonical
  form (`canonicalName_canonicalName`), since `Math.` has small letters.  So a
  call applies what is registered under the name as it is written, of which one
  `Math.` is left out and no second one.

  * `Derives.calledNames`: the calls of a tree are those written, in the same
    order, under their canonical names;
  * `evaluateFound` is the meaning of a call with what was found for its name,
    and `canonical_call` says that it is the name as written that counts.
-/
import ProductFormula.Proofs.Function.Registrations
import ProductFormula.Proofs.Printer.Parsed

namespace ProductFormula

variable {name : String}

/-! ## Canonical names -/

/-- **The canonical form of a name is its own canonical form.** -/
theorem canonicalName_canonicalName (h : ∀ c ∈ name.toList, Token.isNamePart c) :
    canonicalName (canonicalName name) = canonicalName name :=
  canonicalName_eq_self (isCapitalPart_canonicalName h)

/-- One `Math.` is left out, whatever stands behind it. -/
theorem canonicalName_math_append (rest : String) :
    canonicalName ("Math." ++ rest) = Text.upperCase rest := by
  have hdrop : dropMath ("Math." ++ rest).toList = rest.toList := by
    rw [String.toList_append]
    rfl
  rw [canonicalName, hdrop, String.ofList_toList]

namespace Registry

/-- No function that every formula may call has a point in its name. -/
theorem get?_standard_of_point (h : '.' ∈ (canonicalName name).toList) :
    standard.get? name = none := by
  have hkeys : ∀ f ∈ Function.builtins, '.' ∉ (Text.upperCase f.name).toList := by decide +kernel
  rw [standard_eq, get?_registerAll, List.getLast?_eq_none_iff, List.filter_eq_nil_iff]
  intro f hf heq
  exact hkeys f hf (eq_of_beq heq ▸ h)

/-- A second `Math.` is part of the name that is looked for. -/
theorem get?_math_math (rest : String) : standard.get? ("Math.Math." ++ rest) = none := by
  refine get?_standard_of_point ?_
  have hcut : "Math.Math." ++ rest = "Math." ++ ("Math." ++ rest) := by
    rw [← String.append_assoc]
    rfl
  rw [hcut, canonicalName_math_append, Text.upperCase, String.toList_ofList, String.toList_append]
  exact List.mem_flatMap.2 ⟨'.', by simp, List.mem_singleton_self _⟩

end Registry

/-! ## Calls as they are written -/

namespace Token

/-- The names in front of parentheses; `SE(` calls no function. -/
def calledNames : List Token → List String
  | .name name :: .symbol .leftParen :: ts =>
    if name = "SE" then calledNames ts else name :: calledNames ts
  | _ :: ts => calledNames ts
  | [] => []

/-- Calls do not reach over what is no parenthesis. -/
theorem calledNames_append (ts : List Token) {us : List Token}
    (h : us.head? ≠ some (.symbol .leftParen)) :
    calledNames (ts ++ us) = calledNames ts ++ calledNames us := by
  fun_induction calledNames ts with
  | case1 ts ih => simp [calledNames, ih]
  | case2 name ts hname ih => simp [calledNames, hname, ih]
  | case3 t ts hcall ih =>
    rw [List.cons_append, calledNames, ih]
    rintro name vs rfl happend
    cases ts with
    | nil => exact h (by rw [← List.nil_append us, happend]; rfl)
    | cons t ts =>
      cases happend
      exact hcall name ts rfl rfl
  | case4 => rfl

theorem calledNames_symbol {s : Symbol} (hs : s ≠ .leftParen) (ts us : List Token) :
    calledNames (ts ++ .symbol s :: us) = calledNames ts ++ calledNames us := by
  rw [calledNames_append ts (by simpa using hs), calledNames]
  rintro name vs hname
  cases hname

theorem calledNames_intercalate (tss : List (List Token)) :
    calledNames ([.symbol .comma].intercalate tss) = tss.flatMap calledNames := by
  induction tss with
  | nil => rfl
  | cons ts tss ih =>
    by_cases hne : tss = []
    · subst hne
      simp
    · rw [List.intercalate_cons_of_ne_nil hne, List.append_assoc, List.singleton_append,
        calledNames_symbol (by decide), ih, List.flatMap_cons]

end Token

/-- The name that a call carries. -/
def Expr.calledName? : Expr → Option String
  | call name _ => some name
  | _ => none

namespace Grammar

open Token

/-- **The calls of a tree are those that are written**, under their canonical
    names. -/
theorem Derives.calledNames {c : Category} {ts : List Token} {e : Expr} (h : Derives c ts e) :
    e.nodes.filterMap Expr.calledName? = (calledNames ts).map canonicalName := by
  induction h with
  | plain _ ih | operand _ ih | unsigned _ ih | base _ ih => exact ih
  | number | string | trueWord | falseWord | constant | reference => rfl
  | conditional _ _ _ ih₁ ih₂ ih₃ | selection _ _ _ ih₁ ih₂ ih₃ =>
    simp [Expr.nodes, Expr.calledName?, List.filterMap_cons, Token.calledNames,
      calledNames_symbol, ih₁, ih₂, ih₃]
  | @operation op _ _ _ _ _ _ ih₁ ih₂ =>
    have hop : op.symbol ≠ .leftParen := by cases op <;> decide
    simp [Expr.nodes, Expr.calledName?, List.filterMap_cons, calledNames_symbol hop, ih₁, ih₂]
  | range _ _ ih₁ ih₂ =>
    simp [Expr.nodes, Expr.calledName?, List.filterMap_cons, Token.calledNames,
      calledNames_symbol, ih₁, ih₂]
  | power _ ih =>
    rw [calledNames_append _ (by simp)]
    simp [Expr.nodes, Expr.calledName?, List.filterMap_cons, Token.calledNames, ih]
  | sign _ ih | group _ ih | rounding _ ih | glyph _ ih | grouping _ ih =>
    simp [Expr.nodes, Expr.calledName?, List.filterMap_cons, Token.calledNames,
      calledNames_symbol, ih]
  | @call name args hname _ ih =>
    have hargs : args.flatMap (fun arg => arg.2.nodes.filterMap Expr.calledName?) =
        args.flatMap fun arg => (Token.calledNames arg.1).map canonicalName := by
      rw [List.flatMap_def, List.flatMap_def, List.map_congr_left ih]
    simp [Expr.nodes, Expr.allNodes_eq_flatMap, List.filterMap_flatMap, List.flatMap_map,
      List.map_flatMap, hargs, Expr.calledName?, Token.calledNames, hname, calledNames_symbol,
      calledNames_intercalate]

end Grammar

/-! ## The meaning of calls -/

namespace Expr

/-- The call of what was found under a name, if anything was. -/
def evaluateFound (ctx : Context) (found : Option Function) (name : String) (args : List Expr) :
    Except Error Value :=
  match found with
  | none => .error (.unknownFunction name)
  | some f =>
    match f.refusal? args.length with
    | some expected => .error (.argumentCount f.name expected args.length)
    | none => do
      let values ← evaluateAll ctx args
      return f.apply values

theorem evaluate_call (ctx : Context) (name : String) (args : List Expr) :
    (call name args).evaluate ctx = evaluateFound ctx (Registry.standard.get? name) name args := by
  rw [evaluate, callee]
  unfold evaluateFound
  cases Registry.standard.get? name with
  | none => rfl
  | some f =>
    dsimp only
    cases f.refusal? args.length with
    | some expected => rfl
    | none => rfl

/-- **A call finds what the name finds that is written.**  A name that is cut
    off from a text has one canonical form, under which every registry finds
    what it finds under the name; a second `Math.` is never left out.  The calls
    of a text's tree carry the canonical forms of the names that are written, and
    apply what is found under these. -/
theorem canonical_call {text : String} (hname : .name name ∈ Token.lex text.toList) :
    canonicalName (canonicalName name) = canonicalName name ∧
      (∀ registry : Registry, registry.get? (canonicalName name) = registry.get? name) ∧
      (∀ rest, name = "Math." ++ rest → canonicalName name = Text.upperCase rest) ∧
      (∀ rest, name = "Math.Math." ++ rest → Registry.standard.get? name = none) ∧
      (∀ ctx args, (call (canonicalName name) args).evaluate ctx =
        evaluateFound ctx (Registry.standard.get? name) (canonicalName name) args) ∧
      ∀ limit e, parse limit text = .ok e → e.nodes.filterMap calledName? =
        (Token.calledNames (Token.lex text.toList)).map canonicalName := by
  have hparts : ∀ c ∈ name.toList, Token.isNamePart c := Token.proper_of_mem_lex _ hname
  have hcanonical := canonicalName_canonicalName hparts
  have hfound (registry : Registry) :
      registry.get? (canonicalName name) = registry.get? name := by
    rw [Registry.get?, hcanonical, Registry.get?]
  refine ⟨hcanonical, hfound, ?_, ?_, fun ctx args => ?_, fun limit e h => ?_⟩
  · rintro rest rfl
    exact canonicalName_math_append rest
  · rintro rest rfl
    exact Registry.get?_math_math rest
  · rw [evaluate_call, hfound]
  · exact (Grammar.parse_eq_ok_iff_nests.1 h).derives.calledNames

/-- The inner name of `Math.abs(Math.Math.round({A}))` is unknown. -/
theorem canonical_call_math_math :
    .name "Math.Math.round" ∈ Token.lex "Math.abs(Math.Math.round(\x7bA\x7d))".toList ∧
      canonicalName (canonicalName "Math.Math.round") = canonicalName "Math.Math.round" ∧
      canonicalName "Math.Math.round" = Text.upperCase "Math.round" ∧
      Registry.standard.get? (canonicalName "Math.Math.round") = none ∧
      (∀ ctx, (call (canonicalName "Math.Math.round") [reference "A" false]).evaluate ctx =
        .error (.unknownFunction "MATH.ROUND")) ∧
      parse 40 "Math.abs(Math.Math.round(\x7bA\x7d))" =
        .ok (call "ABS" [call "MATH.ROUND" [reference "A" false]]) ∧
      (call "ABS" [call "MATH.ROUND" [reference "A" false]]).nodes.filterMap calledName? =
        ["Math.abs", "Math.Math.round"].map canonicalName := by
  have hlex : Token.lex "Math.abs(Math.Math.round(\x7bA\x7d))".toList =
      [.name "Math.abs", .symbol .leftParen, .name "Math.Math.round", .symbol .leftParen,
        .reference "A" false, .symbol .rightParen, .symbol .rightParen] := by
    decide +kernel
  have habs : canonicalName "Math.abs" = "ABS" := by decide +kernel
  have hround : canonicalName "Math.Math.round" = "MATH.ROUND" := by decide +kernel
  have hname : .name "Math.Math.round" ∈
      Token.lex "Math.abs(Math.Math.round(\x7bA\x7d))".toList := by
    rw [hlex]
    simp
  have hreference := @Grammar.Derives.reference "A" false
  have hinner := @Grammar.Derives.call "Math.Math.round" [(_, _)] (by decide)
    (List.forall_mem_singleton.2 (hreference.loosen (Nat.zero_le _)))
  have houter := @Grammar.Derives.call "Math.abs" [(_, _)] (by decide)
    (List.forall_mem_singleton.2 (hinner.loosen (Nat.zero_le _)))
  rw [hround, habs] at houter
  have hparse := Grammar.parse_of_lex 40 (by decide) hlex houter
  obtain ⟨hcanonical, hfound, hmath, hunknown, hevaluate, hcalls⟩ := canonical_call hname
  have hnone := hunknown "round" (by decide +kernel)
  refine ⟨hname, hcanonical, hmath "Math.round" (by decide +kernel), (hfound _).trans hnone, fun ctx => ?_, hparse, ?_⟩
  · rw [hevaluate, hnone, hround]
    rfl
  · have hwritten := hcalls 40 _ hparse
    rw [hlex] at hwritten
    exact hwritten

end Expr

end ProductFormula
