/-
  More levels than needed.

  Levels only ever cut a reader off.  One that has not run out of them answers
  in the same way with any more, also where it refuses (`stays_expression`): on
  the way to its answer it has asked for levels, never for their number.

  One that is given more levels than tokens does not run out
  (`affords_expression`): every level is taken for a token, and a reader leaves
  no more tokens than it was given.

  * `Expr.persists_parse` and `Expr.affords_parse` say this of texts.
-/
import ProductFormula.Proofs.Grammar.Acceptance

namespace ProductFormula

namespace Parser

/-! ## More levels -/

/-- The second reader answers as the first one does, unless that one ran out of
    levels. -/
abbrev Stays {α : Type} (x x' : Except Failure α) : Prop := Persists (· = .tooDeep) x x'

theorem stays_tooDeep {α : Type} (x : Except Failure α) : Stays (.error .tooDeep) x :=
  fun h => absurd rfl (h _ rfl)

section

variable {nested nested' : Phrase} (hn : ∀ ts, Stays (nested ts) (nested' ts)) {ts : List Token}
include hn

theorem stays_closed (ts : List Token) : Stays (closed nested ts) (closed nested' ts) :=
  (hn ts).bind fun _ => .refl _

theorem stays_parenthesised (ts : List Token) :
    Stays (parenthesised nested ts) (parenthesised nested' ts) :=
  (Persists.refl _).bind fun us => stays_closed hn us

theorem stays_rangeTest (operand : Expr) (ts : List Token) :
    Stays (rangeTest nested operand ts) (rangeTest nested' operand ts) := by
  unfold rangeTest
  split
  · refine (hn _).bind fun ⟨min, us⟩ => (Persists.refl _).bind fun us => ?_
    exact (hn us).bind fun _ => .refl _
  · exact .refl _

theorem stays_selection (ts : List Token) : Stays (selection nested ts) (selection nested' ts) := by
  refine (hn ts).bind fun ⟨first, us⟩ => ?_
  dsimp only
  split
  · exact .refl _
  · refine (Persists.refl _).bind fun us => (hn us).bind fun ⟨chosen, vs⟩ => ?_
    exact (Persists.refl _).bind fun vs => (hn vs).bind fun _ => .refl _

theorem stays_separated (bound : Nat) (ts : List Token) :
    Stays (separated nested bound ts) (separated nested' bound ts) := by
  induction bound generalizing ts with
  | zero => exact .refl _
  | succ bound ih =>
    refine (hn ts).bind fun ⟨e, us⟩ => ?_
    dsimp only
    split
    · exact (ih _).bind fun _ => .refl _
    · exact .refl _

theorem stays_arguments (ts : List Token) : Stays (arguments nested ts) (arguments nested' ts) := by
  unfold arguments
  split
  · exact .refl _
  · exact (stays_separated hn _ _).bind fun _ => .refl _

theorem stays_primary (ts : List Token) : Stays (primary nested ts) (primary nested' ts) := by
  unfold primary
  split
  · exact .refl _
  · exact .refl _
  · exact stays_rangeTest hn _ _
  · exact stays_closed hn _
  · exact (stays_parenthesised hn _).bind fun _ => .refl _
  · exact (stays_parenthesised hn _).bind fun _ => .refl _
  · exact .refl _
  · exact .refl _
  · split
    · exact stays_selection hn _
    · exact (stays_arguments hn _).bind fun _ => .refl _
  · exact .refl _
  · exact .refl _
  · exact .refl _

end

theorem stays_powers {room : Nat} (base : Expr) (ts : List Token) : ∀ {room'}, room ≤ room' →
    Stays (powers room base ts) (powers room' base ts) := by
  fun_induction powers room base ts with
  | case1 base s ts => exact fun _ => stays_tooDeep _
  | case2 base s ts room ih =>
    intro room' hle
    obtain ⟨more, rfl⟩ : ∃ more, room' = more + 1 := ⟨room' - 1, by omega⟩
    rw [powers]
    exact ih (by omega)
  | case3 room base ts hne =>
    intro room' hle
    rw [powers]
    · exact .refl _
    · exact hne

/-- **A reader that has levels to spare answers alike with any more of them.** -/
theorem stays_expression (room : Nat) : ∀ ts {room'}, room ≤ room' →
    Stays (expression room ts) (expression room' ts) := by
  apply expression.induct
    (fun room ts => ∀ {room'}, room ≤ room' → Stays (expression room ts) (expression room' ts))
    (fun t room ts => ∀ {room'}, room ≤ room' → Stays (tier t room ts) (tier t room' ts))
    (fun t room left ts => ∀ {room'}, room ≤ room' →
      Stays (chain t room left ts) (chain t room' left ts))
    (fun t room ts => ∀ {room'}, room ≤ room' → Stays (operand t room ts) (operand t room' ts))
    (fun room ts => ∀ {room'}, room ≤ room' → Stays (unary room ts) (unary room' ts))
  case case1 =>
    intro ts room' hle
    rw [expression_zero]
    exact stays_tooDeep _
  case case2 =>
    intro ts room ihTier ihExpression room' hle
    obtain ⟨more, rfl⟩ : ∃ more, room' = more + 1 := ⟨room' - 1, by omega⟩
    rw [expression, expression]
    refine (ihTier (by omega)).bind ?_
    rintro ⟨condition, us⟩
    dsimp only
    split
    · refine (ihExpression _ (by omega)).bind ?_
      rintro ⟨chosen, vs⟩
      refine (Persists.refl _).bind fun vs => ?_
      exact (ihExpression vs (by omega)).bind fun _ => .refl _
    · exact .refl _
  case case3 =>
    intro t room ts ihOperand ihChain room' hle
    rw [tier, tier]
    refine (ihOperand hle).bind ?_
    rintro ⟨left, us⟩
    exact ihChain left us hle
  case case4 =>
    intro t room left ts hop room' hle
    rw [chain, chain, hop]
    exact .refl _
  case case5 =>
    intro t left ts op us hop room' hle
    rw [chain, hop]
    exact stays_tooDeep _
  case case6 =>
    intro t left ts op us hop room ihOperand ihChain room' hle
    obtain ⟨more, rfl⟩ : ∃ more, room' = more + 1 := ⟨room' - 1, by omega⟩
    obtain ⟨rfl, rfl⟩ := operatorOf?_eq_some_iff.1 hop
    rw [Nat.succ_eq_add_one, chain_operator, chain_operator]
    refine (ihOperand (by omega)).bind ?_
    rintro ⟨right, vs⟩
    exact ihChain right vs (by omega)
  case case7 =>
    intro t room ts t' ht ihTier room' hle
    rw [operand_of_tighter ht, operand_of_tighter ht]
    exact ihTier hle
  case case8 =>
    intro t room ts ht ihUnary room' hle
    rw [operand_of_tightest ht, operand_of_tightest ht]
    exact ihUnary hle
  case case9 =>
    intro ts op us hsign room' hle
    rw [unary, hsign]
    exact stays_tooDeep _
  case case10 =>
    intro ts op us hsign room ih room' hle
    obtain ⟨more, rfl⟩ : ∃ more, room' = more + 1 := ⟨room' - 1, by omega⟩
    cases signOf?_eq_some_iff.1 hsign
    rw [unary_sign, unary_sign]
    exact (ih (by omega)).bind fun _ => .refl _
  case case11 =>
    intro room ts hsign ihExpression room' hle
    rw [unary_unsigned hsign, unary_unsigned hsign]
    refine (stays_primary (fun ts => ihExpression ts hle) ts).bind ?_
    rintro ⟨base, us⟩
    exact stays_powers base us hle

/-! ## Enough levels -/

/-- Does not run out of levels, and leaves at most so many tokens. -/
abbrev Affords {α : Type} (count : Nat) (x : Except Failure (α × List Token)) : Prop :=
  Meets (· ≠ .tooDeep) (fun r => r.2.length ≤ count) x

section

variable {α β : Type} {count count' : Nat} {x : Except Failure (α × List Token)}

theorem affords_ok {us : List Token} (h : us.length ≤ count) (a : α) :
    Affords count (.ok (a, us)) := h

theorem affords_malformed (e : ParseError) :
    Affords count (.error (.malformed e) : Except Failure (α × List Token)) :=
  Failure.noConfusion

theorem Affords.mono (h : Affords count x) (hle : count ≤ count') : Affords count' x := by
  cases x with
  | error => exact h
  | ok r => exact Nat.le_trans h hle

theorem Affords.bind {f : α × List Token → Except Failure (β × List Token)} (hx : Affords count x)
    (hf : ∀ a us, us.length ≤ count → Affords count' (f (a, us))) : Affords count' (x >>= f) :=
  Meets.bind hx fun r hr => hf r.1 r.2 hr

theorem affords_expect {s : Symbol} {ts : List Token}
    {f : List Token → Except Failure (α × List Token)}
    (hf : ∀ us, us.length < ts.length → Affords count (f us)) :
    Affords count (expect s ts >>= f) := by
  refine Meets.bind (q := fun us => us.length < ts.length) ?_ hf
  unfold expect
  split
  · split
    · exact Nat.lt_succ_self _
    · exact Failure.noConfusion
  · exact Failure.noConfusion

end

section

variable {room : Nat} {nested : Phrase}
  (hn : ∀ ts, ts.length < room → Affords ts.length (nested ts)) {ts : List Token}
include hn

theorem affords_closed (h : ts.length < room) : Affords ts.length (closed nested ts) := by
  refine (hn ts h).bind fun e us hus => affords_expect fun vs hvs => ?_
  exact affords_ok (by omega) e

theorem affords_parenthesised (h : ts.length ≤ room) :
    Affords ts.length (parenthesised nested ts) :=
  affords_expect fun us hus => (affords_closed hn (by omega)).mono (by omega)

theorem affords_rangeTest (operand : Expr) (h : ts.length ≤ room) :
    Affords ts.length (rangeTest nested operand ts) := by
  unfold rangeTest
  split
  next ts =>
    rw [List.length_cons] at h ⊢
    refine (hn ts h).bind fun min us hus => affords_expect fun us' hus' => ?_
    refine (hn us' (by omega)).bind fun max vs hvs => affords_expect fun vs' hvs' => ?_
    exact affords_ok (by omega) _
  · exact affords_ok (Nat.le_refl _) operand

theorem affords_selection (h : ts.length < room) : Affords ts.length (selection nested ts) := by
  refine (hn ts h).bind fun first us hus => ?_
  dsimp only
  split
  next us =>
    rw [List.length_cons] at hus
    exact affords_ok (by omega) first
  · refine affords_expect fun us' hus' => (hn us' (by omega)).bind fun chosen vs hvs => ?_
    dsimp only
    refine affords_expect fun vs' hvs' => (hn vs' (by omega)).bind fun other ws hws => ?_
    dsimp only
    split
    next ws =>
      rw [List.length_cons] at hws
      exact affords_ok (by omega) _
    · exact affords_malformed _

theorem affords_separated (bound : Nat) (h : ts.length < room) :
    Affords ts.length (separated nested bound ts) := by
  induction bound generalizing ts with
  | zero => exact affords_malformed _
  | succ bound ih =>
    refine (hn ts h).bind fun e us hus => ?_
    dsimp only
    split
    next us =>
      rw [List.length_cons] at hus
      exact (ih (by omega)).bind fun es vs hvs => affords_ok (Nat.le_trans hvs (by omega)) _
    · exact affords_ok hus _

theorem affords_arguments (h : ts.length < room) : Affords ts.length (arguments nested ts) := by
  unfold arguments
  split
  · exact affords_ok (Nat.le_succ _) []
  · refine (affords_separated hn _ h).bind fun args us hus => affords_expect fun vs hvs => ?_
    exact affords_ok (by omega) args

theorem affords_primary (h : ts.length ≤ room) : Affords ts.length (primary nested ts) := by
  unfold primary
  split
  · exact affords_ok (Nat.le_succ _) _
  · exact affords_ok (Nat.le_succ _) _
  · rw [List.length_cons] at h ⊢
    exact (affords_rangeTest hn _ (by omega)).mono (Nat.le_succ _)
  · rw [List.length_cons] at h ⊢
    exact (affords_closed hn h).mono (Nat.le_succ _)
  · rw [List.length_cons] at h ⊢
    refine (affords_parenthesised hn (by omega)).bind fun operand us hus => ?_
    exact affords_ok (by omega) _
  · rw [List.length_cons] at h ⊢
    refine (affords_parenthesised hn (by omega)).bind fun operand us hus => ?_
    exact affords_ok (by omega) _
  · exact affords_malformed _
  · exact affords_malformed _
  · simp only [List.length_cons] at h ⊢
    split
    · exact (affords_selection hn (by omega)).mono (by omega)
    · refine (affords_arguments hn (by omega)).bind fun args us hus => ?_
      exact affords_ok (Nat.le_trans hus (by omega)) _
  next name ts _ =>
    have hnamed : Meets (· ≠ .tooDeep) (fun _ => True) (named name) := by
      unfold named
      repeat' split
      all_goals first | trivial | exact Failure.noConfusion
    exact hnamed.bind fun e _ => affords_ok (Nat.le_succ _) e
  · exact affords_malformed _
  · exact affords_malformed _

end

theorem affords_powers {room : Nat} {base : Expr} {ts : List Token} (h : ts.length ≤ room) :
    Affords ts.length (powers room base ts) := by
  fun_induction powers room base ts with
  | case1 => simp at h
  | case2 base s ts room ih =>
    rw [List.length_cons] at h ⊢
    exact (ih (by omega)).mono (Nat.le_succ _)
  | case3 room base ts => exact affords_ok (Nat.le_refl _) base

/-- **With more levels than tokens no reader runs out of them.** -/
theorem affords_expression (room : Nat) : ∀ ts : List Token, ts.length < room →
    Affords ts.length (expression room ts) := by
  apply expression.induct
    (fun room ts => ts.length < room → Affords ts.length (expression room ts))
    (fun t room ts => ts.length ≤ room → Affords ts.length (tier t room ts))
    (fun t room left ts => ts.length ≤ room → Affords ts.length (chain t room left ts))
    (fun t room ts => ts.length ≤ room → Affords ts.length (operand t room ts))
    (fun room ts => ts.length ≤ room → Affords ts.length (unary room ts))
  case case1 => exact fun ts h => absurd h (Nat.not_lt_zero _)
  case case2 =>
    intro ts room ihTier ihExpression h
    rw [expression]
    refine (ihTier (by omega)).bind fun condition us hus => ?_
    dsimp only
    split
    next us =>
      rw [List.length_cons] at hus
      refine (ihExpression us (by omega)).bind fun chosen vs hvs => ?_
      dsimp only
      refine affords_expect fun vs' hvs' => ?_
      refine (ihExpression vs' (by omega)).bind fun other ws hws => ?_
      exact affords_ok (Nat.le_trans hws (by omega)) _
    · exact affords_ok hus condition
  case case3 =>
    intro t room ts ihOperand ihChain h
    rw [tier]
    exact (ihOperand h).bind fun left us hus => (ihChain left us (by omega)).mono hus
  case case4 =>
    intro t room left ts hop h
    rw [chain, hop]
    exact affords_ok (Nat.le_refl _) left
  case case5 =>
    intro t left ts op us hop h
    obtain ⟨-, rfl⟩ := operatorOf?_eq_some_iff.1 hop
    simp at h
  case case6 =>
    intro t left ts op us hop room ihOperand ihChain h
    obtain ⟨rfl, rfl⟩ := operatorOf?_eq_some_iff.1 hop
    rw [List.length_cons] at h ⊢
    rw [Nat.succ_eq_add_one, chain_operator]
    refine (ihOperand (by omega)).bind fun right vs hvs => ?_
    exact (ihChain right vs (by omega)).mono (by omega)
  case case7 =>
    intro t room ts t' ht ihTier h
    rw [operand_of_tighter ht]
    exact ihTier h
  case case8 =>
    intro t room ts ht ihUnary h
    rw [operand_of_tightest ht]
    exact ihUnary h
  case case9 =>
    intro ts op us hsign h
    cases signOf?_eq_some_iff.1 hsign
    simp at h
  case case10 =>
    intro ts op us hsign room ih h
    cases signOf?_eq_some_iff.1 hsign
    rw [List.length_cons] at h ⊢
    rw [unary_sign]
    exact (ih (by omega)).bind fun operand vs hvs => affords_ok (Nat.le_succ_of_le hvs) _
  case case11 =>
    intro room ts hsign ihExpression h
    rw [unary_unsigned hsign]
    refine (affords_primary (fun us => ihExpression us) h).bind fun base us hus => ?_
    exact (affords_powers (Nat.le_trans hus h)).mono hus

end Parser

/-! ## Texts -/

/-- The parser has run out of levels. -/
def Error.NestsTooDeep (e : Error) : Prop := ∃ limit, e = .depthExceeded limit

namespace Expr

variable {limit limit' : Nat} {text : String}

theorem nestsTooDeep_toError {failure : Parser.Failure} :
    (failure.toError limit).NestsTooDeep ↔ failure = .tooDeep := by
  cases failure with
  | malformed e => exact iff_of_false (fun ⟨_, h⟩ => Error.noConfusion h) Parser.Failure.noConfusion
  | tooDeep => exact iff_of_true ⟨limit, rfl⟩ rfl

theorem limit_of_depthExceeded {bound : Nat}
    (h : parse limit text = .error (.depthExceeded bound)) : bound = limit := by
  unfold parse at h
  split at h
  · cases h
  · cases h
  next failure _ =>
    cases failure with
    | malformed => cases h
    | tooDeep =>
      cases h
      rfl

/-- **A text that does not nest too deep is read alike at any higher limit.** -/
theorem persists_parse (h : limit ≤ limit') (text : String) :
    Persists Error.NestsTooDeep (parse limit text) (parse limit' text) := by
  intro hparse
  have hreads : FailsWith (fun failure => ¬ failure = .tooDeep)
      (Parser.expression limit (Token.lex text.toList)) := by
    rintro failure hfailure rfl
    refine hparse (.depthExceeded limit) ?_ ⟨limit, rfl⟩
    rw [parse, hfailure]
    rfl
  unfold parse
  rw [Parser.stays_expression limit _ h hreads]
  split
  · rfl
  · rfl
  next failure hfailure =>
    cases failure with
    | malformed => rfl
    | tooDeep => exact absurd rfl (hreads _ hfailure)

/-- **A limit above the length of the text is never exceeded.** -/
theorem affords_parse (h : text.length < limit) :
    FailsWith (fun e => ¬ e.NestsTooDeep) (parse limit text) := by
  have htokens := Grammar.length_lex_le text.toList
  rw [String.length_toList] at htokens
  have hreads := Parser.affords_expression limit (Token.lex text.toList) (by omega)
  unfold parse
  split
  · exact failsWith_ok _
  · exact failsWith_error fun ⟨_, h⟩ => Error.noConfusion h
  next failure hfailure =>
    rw [hfailure] at hreads
    exact failsWith_error (mt nestsTooDeep_toError.1 hreads)

end Expr

end ProductFormula
