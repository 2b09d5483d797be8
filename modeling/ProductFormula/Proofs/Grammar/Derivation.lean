/-
  The grammar of expressions.

  Phrases come in categories (`Category`), loosest first: expressions, the six
  tiers of binary operators, phrases with signs, phrases with powers, and
  primaries.  `Derives c ts e` says that the tokens `ts` are a phrase of the
  category `c` with the tree `e`.  The rules know nothing of look-ahead, of an
  allowance, or of the order in which tokens are read.

  * `BinaryOp.tier` and `BinaryOp.symbol` place an operator and spell it;
    `operator?_eq_some_iff` says that the reader of operators agrees;
  * `Derives.head`: what a phrase can start with;
  * `Derives.valid`: no phrase holds a token that is no word.
-/
import ProductFormula.Expr.Parser
import ProductFormula.Proofs.Separated

namespace ProductFormula

open ProductFormula.Parser

/-! ## Operators -/

/-- The tier an operator belongs to. -/
def BinaryOp.tier : BinaryOp → Tier
  | or => .or
  | and => .and
  | equal | notEqual | strictEqual | strictNotEqual => .equality
  | lessThan | lessEqual | greaterThan | greaterEqual => .relational
  | add | subtract => .additive
  | multiply | divide | modulo => .multiplicative

/-- How an operator is written. -/
def BinaryOp.symbol : BinaryOp → Symbol
  | add => .plus
  | subtract => .minus
  | multiply => .star
  | divide => .slash
  | modulo => .percent
  | equal => .equal
  | notEqual => .notEqual
  | strictEqual => .strictEqual
  | strictNotEqual => .strictNotEqual
  | lessThan => .lessThan
  | lessEqual => .lessEqual
  | greaterThan => .greaterThan
  | greaterEqual => .greaterEqual
  | and => .and
  | or => .or

/-- How a sign is written. -/
def UnaryOp.symbol : UnaryOp → Symbol
  | negate => .minus
  | plus => .plus
  | not => .bang

namespace Parser

theorem operator?_eq_some_iff {t : Tier} {s : Symbol} {op : BinaryOp} :
    t.operator? s = some op ↔ op.tier = t ∧ op.symbol = s := by
  constructor
  · intro h
    unfold Tier.operator? at h
    split at h <;> cases h <;> exact ⟨rfl, rfl⟩
  · rintro ⟨rfl, rfl⟩
    cases op <;> rfl

theorem operatorOf?_eq_some_iff {t : Tier} {op : BinaryOp} {ts us : List Token} :
    operatorOf? t ts = some (op, us) ↔ op.tier = t ∧ ts = .symbol op.symbol :: us := by
  constructor
  · intro h
    unfold operatorOf? at h
    split at h
    · obtain ⟨_, hop, he⟩ := Option.map_eq_some_iff.1 h
      cases he
      obtain ⟨ht, rfl⟩ := operator?_eq_some_iff.1 hop
      exact ⟨ht, rfl⟩
    · cases h
  · rintro ⟨ht, rfl⟩
    simp [operatorOf?, operator?_eq_some_iff.2 ⟨ht, rfl⟩]

theorem signOf?_eq_some_iff {op : UnaryOp} {ts us : List Token} :
    signOf? ts = some (op, us) ↔ ts = .symbol op.symbol :: us := by
  constructor
  · intro h
    unfold signOf? at h
    split at h <;> cases h <;> rfl
  · rintro rfl
    cases op <;> rfl

end Parser

/-! ## Categories -/

namespace Grammar

/-- The kinds of phrases. -/
inductive Category where
  | expression
  | tier (t : Tier)
  /-- an operand with signs in front of it, or none -/
  | signed
  /-- a primary with powers behind it, or none -/
  | powered
  | primary
deriving DecidableEq

/-- What the operators of a tier stand between. -/
def operands (t : Tier) : Category :=
  match t.tighter? with
  | some t' => .tier t'
  | none => .signed

/-- How loosely a phrase holds together: less binds tighter. -/
def Category.looseness : Category → Nat
  | primary => 0
  | powered => 1
  | signed => 2
  | tier t => t.rank + 3
  | expression => 9

@[simp] theorem looseness_operands (t : Tier) : (operands t).looseness = t.rank + 2 := by
  cases t <;> rfl

/-! ## Derivations -/

/-- The tokens are a phrase of the category, with this tree. -/
inductive Derives : Category → List Token → Expr → Prop
  -- expressions
  | plain {ts e} : Derives (.tier .or) ts e → Derives .expression ts e
  | conditional {ts us vs c a b} : Derives (.tier .or) ts c → Derives .expression us a →
      Derives .expression vs b →
      Derives .expression (ts ++ .symbol .question :: (us ++ .symbol .colon :: vs))
        (.conditional c a b)
  -- chains of operators, grouped to the left
  | operand {t ts e} : Derives (operands t) ts e → Derives (.tier t) ts e
  | operation {op ts us l r} : Derives (.tier op.tier) ts l → Derives (operands op.tier) us r →
      Derives (.tier op.tier) (ts ++ .symbol op.symbol :: us) (.binary op l r)
  -- signs and powers
  | unsigned {ts e} : Derives .powered ts e → Derives .signed ts e
  | sign {op ts e} : Derives .signed ts e →
      Derives .signed (.symbol op.symbol :: ts) (.unary op e)
  | base {ts e} : Derives .primary ts e → Derives .powered ts e
  | power {s ts e} : Derives .powered ts e →
      Derives .powered (ts ++ [.superscript s false]) (.exponent e s.power)
  -- literals and names
  | number {n} : Derives .primary [.number n] (.number n)
  | string {s} : Derives .primary [.string s] (.string s)
  | trueWord : Derives .primary [.name "true"] (.boolean true)
  | falseWord : Derives .primary [.name "false"] (.boolean false)
  | constant {name n} : constant? name = some n → Derives .primary [.name name] (.number n)
  -- references
  | reference {name optional} :
      Derives .primary [.reference name optional] (.reference name optional)
  | range {name optional ts us min max} : Derives .expression ts min → Derives .expression us max →
      Derives .primary
        (.reference name optional :: .symbol .leftBracket ::
          (ts ++ .symbol .comma :: (us ++ [.symbol .rightBracket])))
        (.between (.reference name optional) min max)
  -- parentheses and glyphs
  | group {ts e} : Derives .expression ts e →
      Derives .primary (.symbol .leftParen :: (ts ++ [.symbol .rightParen])) e
  | rounding {s ts e} : Derives .expression ts e →
      Derives .primary
        (.superscript s true :: .symbol .leftParen :: (ts ++ [.symbol .rightParen]))
        (.glyph s.toGlyph e)
  | glyph {g ts e} : Derives .expression ts e →
      Derives .primary (.glyph g true :: .symbol .leftParen :: (ts ++ [.symbol .rightParen]))
        (.glyph g e)
  -- calls
  | grouping {ts e} : Derives .expression ts e →
      Derives .primary (.name "SE" :: .symbol .leftParen :: (ts ++ [.symbol .rightParen])) e
  | selection {ts us vs c a b} : Derives .expression ts c → Derives .expression us a →
      Derives .expression vs b →
      Derives .primary
        (.name "SE" :: .symbol .leftParen ::
          (ts ++ .symbol .comma :: (us ++ .symbol .comma :: (vs ++ [.symbol .rightParen]))))
        (.conditional c a b)
  | call {name} {args : List (List Token × Expr)} : name ≠ "SE" →
      (∀ arg ∈ args, Derives .expression arg.1 arg.2) →
      Derives .primary
        (.name name :: .symbol .leftParen ::
          ([.symbol .comma].intercalate (args.map (·.1)) ++ [.symbol .rightParen]))
        (.call (canonicalName name) (args.map (·.2)))

/-! ## Tighter phrases -/

/-- The category of the phrases that are phrases of this one as they stand. -/
def Category.tighter : Category → Category
  | expression => .tier .or
  | tier t => operands t
  | signed => .powered
  | powered => .primary
  | primary => .primary

theorem Category.looseness_tighter (c : Category) : c.tighter.looseness = c.looseness - 1 := by
  rcases c with _ | t | _ | _ | _
  · rfl
  · exact looseness_operands t
  · rfl
  · rfl
  · rfl

theorem Category.looseness_le (c : Category) : c.looseness ≤ expression.looseness := by
  rcases c with _ | t | _ | _ | _
  · decide
  · cases t <;> decide
  · decide
  · decide
  · decide

theorem rank_injective {t t' : Tier} (h : t.rank = t'.rank) : t = t' := by
  cases t <;> cases t' <;> first | rfl | cases h

theorem Category.looseness_injective {c c' : Category} (h : c.looseness = c'.looseness) :
    c = c' := by
  cases c with
  | tier t =>
    cases c' with
    | tier t' => rw [rank_injective (Nat.add_right_cancel h)]
    | _ => cases t <;> cases h
  | _ =>
    cases c' with
    | tier t' => cases t' <;> cases h
    | _ => first | rfl | cases h

theorem Derives.of_tighter {c : Category} {ts : List Token} {e : Expr}
    (h : Derives c.tighter ts e) : Derives c ts e := by
  cases c with
  | expression => exact .plain h
  | tier t => exact .operand h
  | signed => exact .unsigned h
  | powered => exact .base h
  | primary => exact h

/-- A phrase is a phrase of every looser category. -/
theorem Derives.loosen {c c' : Category} {ts : List Token} {e : Expr} (h : Derives c ts e)
    (hle : c.looseness ≤ c'.looseness) : Derives c' ts e := by
  obtain ⟨steps, hsteps⟩ : ∃ steps, c'.looseness = c.looseness + steps :=
    ⟨c'.looseness - c.looseness, by omega⟩
  clear hle
  induction steps generalizing c' with
  | zero => exact Category.looseness_injective hsteps ▸ h
  | succ steps ih => exact .of_tighter (ih (by rw [Category.looseness_tighter]; omega))

/-! ## Fronts of phrases -/

/-- The tokens that a phrase of a category can start with. -/
def Starts (c : Category) : Token → Prop
  | .symbol .leftParen => True
  | .symbol .minus | .symbol .plus | .symbol .bang => Category.signed.looseness ≤ c.looseness
  | .symbol _ | .invalid _ => False
  | _ => True

theorem Starts.mono {c c' : Category} (h : c.looseness ≤ c'.looseness) {t : Token}
    (ht : Starts c t) : Starts c' t := by
  unfold Starts at ht ⊢
  split at ht
  · trivial
  · exact Nat.le_trans ht h
  · exact Nat.le_trans ht h
  · exact Nat.le_trans ht h
  · exact ht.elim
  · exact ht.elim
  · trivial

theorem Derives.head {c : Category} {ts : List Token} {e : Expr} (h : Derives c ts e) :
    ∃ t us, ts = t :: us ∧ Starts c t := by
  induction h with
  | plain _ ih =>
    obtain ⟨t, us, rfl, ht⟩ := ih
    exact ⟨t, us, rfl, ht.mono (by decide)⟩
  | conditional _ _ _ ih =>
    obtain ⟨t, us, rfl, ht⟩ := ih
    exact ⟨t, _, rfl, ht.mono (by decide)⟩
  | @operand t' _ _ _ ih =>
    obtain ⟨t, us, rfl, ht⟩ := ih
    refine ⟨t, us, rfl, ht.mono ?_⟩
    rw [looseness_operands]
    exact Nat.le_succ _
  | operation _ _ ih =>
    obtain ⟨t, us, rfl, ht⟩ := ih
    exact ⟨t, _, rfl, ht⟩
  | unsigned _ ih =>
    obtain ⟨t, us, rfl, ht⟩ := ih
    exact ⟨t, us, rfl, ht.mono (by decide)⟩
  | @sign op => exact ⟨_, _, rfl, by cases op <;> exact Nat.le_refl _⟩
  | base _ ih =>
    obtain ⟨t, us, rfl, ht⟩ := ih
    exact ⟨t, us, rfl, ht.mono (by decide)⟩
  | power _ ih =>
    obtain ⟨t, us, rfl, ht⟩ := ih
    exact ⟨t, _, rfl, ht⟩
  | _ => exact ⟨_, _, rfl, trivial⟩

theorem Derives.length_pos {c : Category} {ts : List Token} {e : Expr} (h : Derives c ts e) :
    0 < ts.length := by
  obtain ⟨t, us, rfl, -⟩ := h.head
  exact Nat.succ_pos _

/-! ## Words only -/

/-- A token that is a word. -/
def Valid : Token → Prop
  | .invalid _ => False
  | _ => True

theorem Derives.valid {c : Category} {ts : List Token} {e : Expr} (h : Derives c ts e) :
    ∀ t ∈ ts, Valid t := by
  induction h with
  | plain _ ih | operand _ ih | unsigned _ ih | base _ ih => exact ih
  | call _ _ ih =>
    have separated := forall_mem_intercalate (show Valid (.symbol .comma) from trivial)
      (List.forall_mem_map.2 ih)
    simpa [Valid, or_imp, forall_and] using separated
  | _ => simp_all [Valid, or_imp]

end Grammar

end ProductFormula
