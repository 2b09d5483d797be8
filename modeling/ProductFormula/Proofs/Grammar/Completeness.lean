/-
  What the parser does with a phrase in front of it.

  A phrase ends where the token behind it cannot carry it on (`Stops`): a
  parenthesis or bracket belongs to a primary, a superscript to a phrase with
  powers, an operator to its tier and all looser phrases, a question mark to an
  expression.

  * `Nests.reads`: the reader of a category takes a phrase that fits in its
    room off the front and answers with its tree.  A chain leaves its reader in
    the middle of the chain, with the room that its operators have left.
-/
import ProductFormula.Proofs.Grammar.Nesting
import ProductFormula.Proofs.Grammar.Phrases

namespace ProductFormula.Grammar

open ProductFormula.Parser

/-! ## Ends of phrases -/

/-- The looseness of the tightest phrases that a token behind them carries on,
    if there are any. -/
def joins? : Token → Option Nat
  | .symbol .leftParen | .symbol .leftBracket => some 0
  | .superscript _ false => some 1
  | .symbol .star | .symbol .slash | .symbol .percent => some 3
  | .symbol .plus | .symbol .minus => some 4
  | .symbol .lessThan | .symbol .lessEqual | .symbol .greaterThan | .symbol .greaterEqual => some 5
  | .symbol .equal | .symbol .notEqual | .symbol .strictEqual | .symbol .strictNotEqual => some 6
  | .symbol .and => some 7
  | .symbol .or => some 8
  | .symbol .question => some 9
  | _ => none

theorem joins?_symbol (op : BinaryOp) : joins? (.symbol op.symbol) = some (op.tier.rank + 3) := by
  cases op <;> rfl

/-- No phrase of the category goes on with these tokens. -/
def Stops (c : Category) (rest : List Token) : Prop :=
  ∀ t ∈ rest.head?, ∀ k ∈ joins? t, c.looseness < k

theorem Stops.mono {c c' : Category} {rest : List Token} (h : Stops c rest)
    (hle : c'.looseness ≤ c.looseness) : Stops c' rest :=
  fun t ht k hk => Nat.lt_of_le_of_lt hle (h t ht k hk)

theorem Stops.operands {t : Tier} {rest : List Token} (h : Stops (.tier t) rest) :
    Stops (operands t) rest :=
  h.mono (by rw [looseness_operands]; exact Nat.le_succ _)

theorem stops_nil (c : Category) : Stops c [] :=
  fun _ ht => by cases ht

/-- A token that carries no phrase on ends every phrase. -/
theorem stops_of_joins?_eq_none {t : Token} (h : joins? t = none) (c : Category)
    (rest : List Token) : Stops c (t :: rest) := by
  intro t' ht k hk
  cases Option.some.inj ht
  rw [h] at hk
  cases hk

theorem stops_of_joins? {t : Token} {k : Nat} (h : joins? t = some k) {c : Category}
    (hlt : c.looseness < k) (rest : List Token) : Stops c (t :: rest) := by
  intro t' ht k' hk
  cases Option.some.inj ht
  rw [h] at hk
  cases hk
  exact hlt

/-! ## What readers do where a phrase stops -/

theorem chain_of_stops {t : Tier} {rest : List Token} (h : Stops (.tier t) rest) (room : Nat)
    (e : Expr) : chain t room e rest = .ok (e, rest) := by
  have none : operatorOf? t rest = none := by
    rw [Option.eq_none_iff_forall_not_mem]
    rintro ⟨op, us⟩ hop
    obtain ⟨rfl, rfl⟩ := operatorOf?_eq_some_iff.1 hop
    exact Nat.lt_irrefl _ (h _ rfl _ (joins?_symbol op))
  rw [chain, none]

theorem powers_of_stops {rest : List Token} (h : Stops .signed rest) (room : Nat) (e : Expr) :
    powers room e rest = .ok (e, rest) := by
  unfold powers
  split
  · exact absurd (h _ rfl 1 rfl) (by decide)
  · rfl

theorem rangeTest_of_stops {nested : Phrase} {rest : List Token} (h : Stops .primary rest)
    (e : Expr) : rangeTest nested e rest = .ok (e, rest) := by
  unfold rangeTest
  split
  · exact absurd (h _ rfl 0 rfl) (by decide)
  · rfl

theorem primary_of_named {nested : Phrase} {name : String} {e : Expr} (h : named name = .ok e)
    {rest : List Token} (hrest : Stops .primary rest) :
    primary nested (.name name :: rest) = .ok (e, rest) := by
  have hne : ∀ us, rest = .symbol .leftParen :: us → False := by
    rintro us rfl
    exact absurd (hrest _ rfl 0 rfl) (by decide)
  rw [primary, h]
  · rfl
  · exact hne

theorem signOf?_of_head {ts us : List Token} {t : Token} (h : ts = t :: us)
    (ht : Starts .powered t) (rest : List Token) : signOf? (ts ++ rest) = none := by
  rw [Option.eq_none_iff_forall_not_mem]
  rintro ⟨op, vs⟩ hop
  subst h
  cases (signOf?_eq_some_iff.1 hop)
  cases op <;> exact absurd ht (by simp [Starts, Category.looseness, UnaryOp.symbol])

/-! ## Readers of nested expressions -/

/-- The reader takes the tokens off the front wherever an expression can end. -/
def Takes (nested : Phrase) (ts : List Token) (e : Expr) : Prop :=
  ∀ rest, Stops .expression rest → nested (ts ++ rest) = .ok (e, rest)

section
variable {nested : Phrase} {ts : List Token} {e : Expr}

/-- In front of a token that ends every phrase. -/
theorem Takes.before (h : Takes nested ts e) {t : Token} (ht : joins? t = none)
    (rest : List Token) : nested (ts ++ t :: rest) = .ok (e, t :: rest) :=
  h _ (stops_of_joins?_eq_none ht _ rest)

theorem Takes.closed (h : Takes nested ts e) (rest : List Token) :
    closed nested (ts ++ .symbol .rightParen :: rest) = .ok (e, rest) :=
  closed_eq_ok.2 (h.before rfl rest)

theorem Takes.parenthesised (h : Takes nested ts e) (rest : List Token) :
    parenthesised nested (.symbol .leftParen :: (ts ++ .symbol .rightParen :: rest)) =
      .ok (e, rest) :=
  parenthesised_eq_ok.2 ⟨_, rfl, h.before rfl rest⟩

theorem separated_of_takes {args : List (List Token × Expr)} (hne : args ≠ [])
    (h : ∀ arg ∈ args, Takes nested arg.1 arg.2) (rest : List Token) :
    ∀ bound, args.length ≤ bound →
      separated nested bound
          ([.symbol .comma].intercalate (args.map (·.1)) ++ .symbol .rightParen :: rest) =
        .ok (args.map (·.2), .symbol .rightParen :: rest) := by
  induction args with
  | nil => exact absurd rfl hne
  | cons arg args ih =>
    intro bound hbound
    obtain ⟨bound, rfl⟩ : ∃ less, bound = less + 1 := ⟨bound - 1, by simp at hbound; omega⟩
    have harg := h arg List.mem_cons_self
    rw [separated, bind_eq_ok]
    by_cases hargs : args = []
    · subst hargs
      exact ⟨_, by simpa using harg.before rfl rest, rfl⟩
    · have hrest := ih hargs (fun a ha => h a (List.mem_cons_of_mem _ ha)) bound
        (Nat.le_of_succ_le_succ hbound)
      rw [List.map_cons, List.intercalate_cons_of_ne_nil (by simpa using hargs)]
      simp only [List.append_assoc, List.singleton_append]
      exact ⟨_, harg.before rfl _, bind_eq_ok.2 ⟨_, hrest, rfl⟩⟩

/-- The arguments of a call, up to its closing parenthesis. -/
theorem arguments_of_takes {args : List (List Token × Expr)}
    (hd : ∀ arg ∈ args, Derives .expression arg.1 arg.2)
    (h : ∀ arg ∈ args, Takes nested arg.1 arg.2) (rest : List Token) :
    arguments nested
        ([.symbol .comma].intercalate (args.map (·.1)) ++ .symbol .rightParen :: rest) =
      .ok (args.map (·.2), rest) := by
  rw [arguments_eq_ok]
  cases args with
  | nil => exact Or.inl ⟨rfl, rfl⟩
  | cons arg args =>
    refine Or.inr ⟨?_, separated_of_takes (by simp) h rest _ ?_⟩
    · -- an argument stands in front, and no expression starts with a closing parenthesis
      obtain ⟨t, us, hus, ht⟩ := (hd arg List.mem_cons_self).head
      obtain ⟨tail, htail⟩ :=
        exists_intercalate_cons (.symbol .comma) arg.1 (args.map (·.1))
      intro vs hvs
      rw [List.map_cons, htail, hus] at hvs
      cases hvs
      exact ht
    · have := length_le_length_intercalate (.symbol .comma) ((arg :: args).map (·.1))
      simp only [List.length_map, List.length_append, List.length_cons] at this ⊢
      omega

end

/-! ## Phrases that fit -/

/-- What the reader of a category does with a phrase in front of it. -/
def Reads (room : Nat) (c : Category) (used : Nat) (ts : List Token) (e : Expr) : Prop :=
  match c with
  | .expression => Takes (fun ts => expression room ts) ts e
  | .tier t => ∀ rest, Stops (operands t) rest →
      tier t room (ts ++ rest) = chain t (room - used) e rest
  | .signed => ∀ rest, Stops .signed rest → unary room (ts ++ rest) = .ok (e, rest)
  | .powered => ∀ rest, Stops .primary rest →
      (primary (fun ts => expression room ts) (ts ++ rest) >>= fun r => powers room r.1 r.2) =
        powers (room - used) e rest
  | .primary => ∀ rest, Stops .primary rest →
      primary (fun ts => expression room ts) (ts ++ rest) = .ok (e, rest)

/-- The operand of a tier, read to its end. -/
theorem Reads.operand {room used : Nat} {t : Tier} {ts : List Token} {e : Expr}
    (h : Reads room (operands t) used ts e) {rest : List Token} (hrest : Stops (operands t) rest) :
    Parser.operand t room (ts ++ rest) = .ok (e, rest) := by
  unfold Grammar.operands at h hrest
  cases ht : t.tighter? with
  | some t' =>
    simp only [ht] at h hrest
    rw [operand_of_tighter ht, h rest hrest.operands, chain_of_stops hrest]
  | none =>
    simp only [ht] at h hrest
    rw [operand_of_tightest ht, h rest hrest]

theorem Nests.reads {room used : Nat} {c : Category} {ts : List Token} {e : Expr}
    (h : Nests room c used ts e) : Reads room c used ts e := by
  induction h with
  | plain _ ih =>
    intro rest hrest
    have hor : Stops (.tier .or) rest := hrest.mono (by decide)
    refine expression_eq_ok.2 (Or.inl ⟨?_, ?_⟩)
    · rw [ih rest hor.operands, chain_of_stops hor]
    · rintro us rfl
      exact Nat.lt_irrefl _ (hrest _ rfl 9 rfl)
  | conditional _ _ _ ih₁ ih₂ ih₃ =>
    intro rest hrest
    simp only [List.append_assoc, List.cons_append]
    refine expression_eq_ok.2 (Or.inr ⟨_, _, _, _, _, ?_, ih₂.before rfl _, ih₃ rest hrest, rfl⟩)
    have hor : ∀ us, Stops (.tier .or) (.symbol .question :: us) :=
      stops_of_joins? rfl (by decide)
    rw [ih₁ _ (hor _).operands, chain_of_stops (hor _)]
  | operand _ ih =>
    intro rest hrest
    rw [tier, Reads.operand ih hrest]
    rfl
  | @operation room used used' op ts us l r _ _ ih₁ ih₂ =>
    intro rest hrest
    have hop : Stops (operands op.tier) (.symbol op.symbol :: (us ++ rest)) :=
      stops_of_joins? (joins?_symbol op) (by rw [looseness_operands]; exact Nat.lt_succ_self _) _
    have hroom : room + used + 1 - used = room + 1 := by omega
    have hleft : room + used + 1 - (used + 1) = room := by omega
    rw [List.append_assoc, List.cons_append, ih₁ _ hop, hroom, hleft, chain_operator,
      Reads.operand ih₂ hrest]
    rfl
  | @unsigned room used ts e h ih =>
    intro rest hrest
    obtain ⟨t, us, hus, ht⟩ := h.derives.head
    rw [unary_unsigned (signOf?_of_head hus ht rest), ih rest (hrest.mono (by decide)),
      powers_of_stops hrest]
  | sign _ ih =>
    intro rest hrest
    rw [List.cons_append, unary_sign, ih rest hrest]
    rfl
  | base _ ih =>
    intro rest hrest
    rw [ih rest hrest]
    rfl
  | @power room used s ts e _ ih =>
    intro rest hrest
    have hs : Stops .primary (.superscript s false :: rest) :=
      stops_of_joins? rfl (by decide) rest
    have hroom : room + used + 1 - used = room + 1 := by omega
    have hleft : room + used + 1 - (used + 1) = room := by omega
    rw [List.append_assoc, List.singleton_append, ih _ hs, hroom, hleft]
    rfl
  | number => exact fun _ _ => rfl
  | string => exact fun _ _ => rfl
  | trueWord => exact fun _ hrest => primary_of_named (named_eq_ok.2 (Or.inl ⟨rfl, rfl⟩)) hrest
  | falseWord =>
    exact fun _ hrest => primary_of_named (named_eq_ok.2 (Or.inr (Or.inl ⟨rfl, rfl⟩))) hrest
  | constant h =>
    exact fun _ hrest => primary_of_named (named_eq_ok.2 (Or.inr (Or.inr ⟨_, h, rfl⟩))) hrest
  | reference => exact fun _ hrest => rangeTest_of_stops hrest _
  | range _ _ ih₁ ih₂ =>
    intro rest _
    simp only [List.cons_append, List.append_assoc, List.nil_append]
    exact rangeTest_eq_ok.2 ⟨_, _, _, ih₁.before rfl _, ih₂.before rfl _, rfl⟩
  | group _ ih =>
    intro rest _
    simp only [List.cons_append, List.append_assoc, List.nil_append]
    exact ih.closed rest
  | rounding _ ih =>
    intro rest _
    simp only [List.cons_append, List.append_assoc, List.nil_append, primary]
    rw [ih.parenthesised rest]
    rfl
  | glyph _ ih =>
    intro rest _
    simp only [List.cons_append, List.append_assoc, List.nil_append, primary]
    rw [ih.parenthesised rest]
    rfl
  | grouping _ ih =>
    intro rest _
    simp only [List.cons_append, List.append_assoc, List.nil_append]
    exact selection_eq_ok.2 (Or.inl (ih.before rfl rest))
  | selection _ _ _ ih₁ ih₂ ih₃ =>
    intro rest _
    simp only [List.cons_append, List.append_assoc, List.nil_append]
    exact selection_eq_ok.2 (Or.inr ⟨_, _, _, _, _, ih₁.before rfl _, ih₂.before rfl _,
      ih₃.before rfl rest, rfl⟩)
  | call hname hargs ih =>
    intro rest _
    simp only [List.cons_append, List.append_assoc, List.nil_append, primary, if_neg hname]
    rw [arguments_of_takes (fun arg harg => (hargs arg harg).derives) ih rest]
    rfl

end ProductFormula.Grammar
