/-
  The counter of levels.

  A reader that counts follows the reader with an allowance: started with `depth`
  levels in use it ends as the plain one does that is given all the levels up to
  the limit (`follows_readers`).  Where it answers it has given back all it has
  taken, and where it refuses it may have kept some (`Ends`).  So the counter
  never goes down further than it has gone up, only the level that is refused
  takes it above the limit, and the fuel lasts as long as there are levels.
-/
import ProductFormula.Proofs.Grammar.Counter
import ProductFormula.Proofs.Grammar.Soundness

namespace ProductFormula.Parser

open Grammar

namespace Counted

variable {α β : Type} {limit top depth depth' base : Nat} {x : Except Failure α} {y : Counted α}

/-! ## Two readers -/

/-- What has come out is what the plain reader gives.  The counter stands at `base`
    after an answer, and no lower after a refusal; it was nowhere above `top`. -/
inductive Ends (top base : Nat) : Except Failure α → EStateM.Result Stop Meter α → Prop
  | answered {a : α} {m : Meter} (hdepth : m.depth = base) (hbase : base < top)
      (hpeak : m.peak ≤ top) : Ends top base (.ok a) (.ok a m)
  | refused {failure : Failure} {m : Meter} (hdepth : base ≤ m.depth) (hpeak : m.peak ≤ top) :
      Ends top base (.error failure) (.error (.refused failure) m)

/-- With `depth` levels in use the counted reader ends as the plain one. -/
def Follows (top depth base : Nat) (x : Except Failure α) (y : Counted α) : Prop :=
  ∀ m : Meter, m.depth = depth → depth < top → m.peak ≤ top → Ends top base x (y.run m)

section

variable {f : α → Except Failure β} {g : α → Counted β}

theorem Follows.bind_of_le (hx : Follows top depth depth' x y) (hbase : base ≤ depth')
    (hf : ∀ a, x = .ok a → Follows top depth' base (f a) (g a)) :
    Follows top depth base (x >>= f) (y >>= g) := by
  intro m hm htop hpeak
  rw [EStateM.run_bind]
  have hends := hx m hm htop hpeak
  generalize y.run m = result at hends
  cases hends with
  | answered hdepth htop' hpeak' => exact hf _ rfl _ hdepth htop' hpeak'
  | refused hdepth hpeak' => exact .refused (Nat.le_trans hbase hdepth) hpeak'

theorem Follows.bind (hx : Follows top depth base x y)
    (hf : ∀ a, x = .ok a → Follows top base base (f a) (g a)) :
    Follows top depth base (x >>= f) (y >>= g) :=
  hx.bind_of_le (Nat.le_refl base) hf

end

theorem follows_pure (a : α) : Follows top depth depth (.ok a) (pure a) :=
  fun _ hm htop hpeak => .answered hm htop hpeak

theorem follows_unmetered (x : Except Failure α) : Follows top depth depth x (unmetered x) := by
  intro m hm htop hpeak
  cases x with
  | ok a => exact .answered hm htop hpeak
  | error failure => exact .refused (Nat.le_of_eq hm.symm) hpeak

/-- A look at the token in front. -/
theorem follows_ite {s : Symbol} {ts : List Token} {y' : Counted α}
    (hfront : ∀ us, ts = .symbol s :: us → Follows top depth base x y)
    (hother : ¬ Begins s ts → Follows top depth base x y') :
    Follows top depth base x (if Begins s ts then y else y') := by
  split
  next h =>
    obtain ⟨us, hus⟩ := begins_iff.1 h
    exact hfront us hus
  next h => exact hother h

/-! ## Levels -/

section

variable {g : Unit → Counted α}

/-- The level that is too much has been taken. -/
theorem follows_enter_refused (h : limit ≤ depth) (hbase : base ≤ depth + 1) :
    Follows top depth base (.error .tooDeep) (enter limit >>= g) := by
  intro m hm htop hpeak
  have hdepth : m.up.depth = depth + 1 := congrArg (· + 1) hm
  rw [EStateM.run_bind, run_enter, if_pos (by omega)]
  refine .refused (by omega) ?_
  rw [Meter.peak_up, hm]
  exact Nat.max_le.2 ⟨hpeak, htop⟩

theorem follows_enter (h : depth < limit) (hlimit : limit < top)
    (hg : Follows top (depth + 1) base x (g ())) :
    Follows top depth base x (enter limit >>= g) := by
  intro m hm htop hpeak
  have hdepth : m.up.depth = depth + 1 := congrArg (· + 1) hm
  rw [EStateM.run_bind, run_enter, if_neg (by omega)]
  refine hg m.up hdepth (by omega) ?_
  rw [Meter.peak_up, hm]
  exact Nat.max_le.2 ⟨hpeak, htop⟩

theorem follows_leave (chained : Nat) (a : α) :
    Follows top (base + chained) base (.ok a) (leave chained >>= fun _ => pure a) := by
  intro m hm htop hpeak
  rw [EStateM.run_bind, run_leave, if_neg (by omega)]
  refine .answered ?_ (by omega) hpeak
  rw [Meter.depth_down, hm, Nat.add_sub_cancel]

theorem follows_leaving (h : Follows top (depth + 1) (depth + 1) x y) :
    Follows top (depth + 1) depth x (try y finally leave 1) := by
  intro m hm htop hpeak
  have hends := h m hm htop hpeak
  generalize hy : y.run m = result at hends
  cases hends with
  | answered hdepth htop' hpeak' =>
    rw [run_leaving_ok hy (by omega)]
    exact .answered (by rw [Meter.depth_down, hdepth]; rfl) (by omega) hpeak'
  | refused hdepth hpeak' =>
    rw [run_leaving_error hy (by omega)]
    exact .refused (by rw [Meter.depth_down]; omega) hpeak'

end

/-! ## Phrases -/

section

variable {nested : Phrase} {nested' : Reader}
  (hn : ∀ ts, Follows top depth depth (nested ts) (nested' ts))
include hn

theorem follows_closed (ts : List Token) :
    Follows top depth depth (Parser.closed nested ts) (closed nested' ts) :=
  (hn ts).bind fun _ _ => (follows_unmetered _).bind fun _ _ => follows_pure _

theorem follows_glyphCall (g : Glyph) (ts : List Token) :
    Follows top depth depth
      (parenthesised nested ts >>= fun r => .ok (.glyph g r.1, r.2))
      (glyphCall nested' g ts) := by
  rw [parenthesised, bind_assoc]
  refine (follows_unmetered _).bind fun us _ => ?_
  exact (follows_closed hn us).bind fun _ _ => follows_pure _

theorem follows_rangeTest (operand : Expr) (ts : List Token) :
    Follows top depth depth
      (expect .leftBracket ts >>= fun _ => Parser.rangeTest nested operand ts)
      (rangeTest nested' operand ts) := by
  refine (follows_unmetered _).bind fun us hus => ?_
  cases expect_eq_ok.1 hus
  refine (hn us).bind fun min _ => (follows_unmetered _).bind fun vs _ => ?_
  refine (hn vs).bind fun max _ => (follows_unmetered _).bind fun ws _ => ?_
  exact follows_pure _

theorem follows_selection (ts : List Token) :
    Follows top depth depth (expect .leftParen ts >>= Parser.selection nested)
      (selection nested' ts) := by
  refine (follows_unmetered _).bind fun us _ => (hn us).bind fun first _ => ?_
  obtain ⟨first, us'⟩ := first
  dsimp only
  refine follows_ite ?_ fun hopen => ?_
  · rintro vs rfl
    exact follows_pure _
  · split
    · exact absurd rfl hopen
    refine (follows_unmetered _).bind fun vs _ => (hn vs).bind fun chosen _ => ?_
    refine (follows_unmetered _).bind fun ws _ => (hn ws).bind fun other _ => ?_
    obtain ⟨other, ws'⟩ := other
    dsimp only
    refine follows_ite ?_ fun hopen' => ?_
    · rintro ys rfl
      exact follows_pure _
    · split
      · exact absurd rfl hopen'
      · exact follows_unmetered _

variable (hshort : ∀ {ts e us}, nested ts = .ok (e, us) → us.length ≤ ts.length)
include hshort

/-- A reader that takes tokens is not stopped by the bound. -/
theorem follows_arguments {bound : Nat} {ts : List Token} (h : ts.length < bound) :
    Follows top depth depth (separated nested bound ts) (arguments nested' bound ts) := by
  induction bound generalizing ts with
  | zero => exact absurd h (Nat.not_lt_zero _)
  | succ bound ih =>
    refine (hn ts).bind fun r hr => ?_
    obtain ⟨e, us⟩ := r
    have hus := hshort hr
    dsimp only
    refine follows_ite ?_ fun hlast => ?_
    · rintro vs rfl
      rw [List.length_cons] at hus
      exact (ih (by omega)).bind fun _ _ => follows_pure _
    · split
      · exact absurd rfl hlast
      · exact follows_pure _

theorem follows_functionCall (name : String) (ts : List Token) :
    Follows top depth depth
      (expect .leftParen ts >>= fun ts => Parser.arguments nested ts >>= fun r =>
        .ok (.call (canonicalName name) r.1, r.2))
      (functionCall nested' name ts) := by
  refine (follows_unmetered _).bind fun us _ => ?_
  dsimp only
  refine follows_ite ?_ fun hopen => ?_
  · rintro vs rfl
    exact follows_pure _
  · have harguments : Parser.arguments nested us =
        separated nested (us.length + 1) us >>= fun r =>
          expect .rightParen r.2 >>= fun ts => .ok (r.1, ts) := by
      unfold Parser.arguments
      split
      · exact absurd rfl hopen
      · rfl
    simp only [harguments, bind_assoc]
    refine (follows_arguments hn hshort (Nat.lt_succ_self _)).bind fun args _ => ?_
    exact (follows_unmetered _).bind fun _ _ => follows_pure _

theorem follows_word (name : String) (ts : List Token) :
    Follows top depth depth (Parser.primary nested (.name name :: ts)) (word nested' name ts) := by
  unfold word
  refine follows_ite ?_ fun hplain => ?_
  · rintro us rfl
    by_cases hselection : name = "SE"
    · have hprimary : Parser.primary nested (.name name :: .symbol .leftParen :: us) =
          Parser.selection nested us := if_pos hselection
      rw [if_pos hselection, hprimary]
      exact follows_selection hn (.symbol .leftParen :: us)
    · have hprimary : Parser.primary nested (.name name :: .symbol .leftParen :: us) =
          Parser.arguments nested us >>= fun r => .ok (.call (canonicalName name) r.1, r.2) :=
        if_neg hselection
      rw [if_neg hselection, hprimary]
      exact follows_functionCall hn hshort name (.symbol .leftParen :: us)
  · have hprimary : Parser.primary nested (.name name :: ts) =
        named name >>= fun e => .ok (e, ts) := by
      rw [Parser.primary]
      · rfl
      · rintro us rfl
        exact hplain rfl
    rw [hprimary]
    exact (follows_unmetered _).bind fun _ _ => follows_pure _

theorem follows_primary (ts : List Token) :
    Follows top depth depth (Parser.primary nested ts) (primary nested' ts) := by
  cases ts with
  | nil => exact follows_unmetered _
  | cons token us =>
    cases token with
    | number => exact follows_pure _
    | string => exact follows_pure _
    | reference name optional =>
      rw [primary]
      refine follows_ite ?_ fun hplain => ?_
      · rintro vs rfl
        exact follows_rangeTest hn (.reference name optional) (.symbol .leftBracket :: vs)
      · have hprimary : Parser.primary nested (.reference name optional :: us) =
            .ok (.reference name optional, us) := by
          rw [Parser.primary, Parser.rangeTest]
          · rfl
          · rintro vs rfl
            exact hplain rfl
        rw [hprimary]
        exact follows_pure _
    | symbol s =>
      cases s with
      | leftParen => exact follows_closed hn us
      | _ => exact follows_unmetered _
    | superscript s called =>
      cases called with
      | true => exact follows_glyphCall hn s.toGlyph us
      | false => exact follows_unmetered _
    | glyph g called =>
      cases called with
      | true => exact follows_glyphCall hn g us
      | false => exact follows_unmetered _
    | name name => exact follows_word hn hshort name us
    | invalid => exact follows_unmetered _

end

/-! ## Readers that take levels -/

theorem length_expression_le {room : Nat} {ts us : List Token} {e : Expr}
    (h : Parser.expression room ts = .ok (e, us)) : us.length ≤ ts.length := by
  obtain ⟨front, rfl, -⟩ := fronts_expression room _ _ _ h
  simp

section

variable {fuel room : Nat} {ts : List Token} (hlimit : limit < top)
include hlimit

theorem follows_powers {operand : Expr} (base chained : Nat) (h : room = limit - (base + chained)) :
    Follows top (base + chained) base (Parser.powers room operand ts)
      (powers limit chained operand ts) := by
  fun_induction Parser.powers room operand ts generalizing chained with
  | case1 =>
    rw [powers]
    exact follows_enter_refused (by omega) (by omega)
  | case2 operand s ts room ih =>
    rw [powers]
    exact follows_enter (by omega) hlimit (ih (chained + 1) (by omega))
  | case3 room operand ts hstop =>
    rw [powers]
    · exact follows_leave chained _
    · exact hstop

theorem follows_powered {nested' : Reader} (h : room = limit - depth)
    (hn : ∀ ts, Follows top depth depth (Parser.expression room ts) (nested' ts)) :
    Follows top depth depth
      (Parser.primary (fun ts => Parser.expression room ts) ts >>= fun r =>
        Parser.powers room r.1 r.2)
      (powered limit nested' ts) :=
  (follows_primary hn length_expression_le ts).bind fun _ _ => follows_powers hlimit depth 0 h

omit hlimit in
theorem follows_ternary
    (htier : Follows top depth depth (Parser.tier .or room ts) (tier limit fuel .or ts))
    (hn : ∀ ts, Follows top depth depth (Parser.expression room ts) (expression limit fuel ts)) :
    Follows top depth depth (Parser.expression (room + 1) ts) (ternary limit fuel ts) := by
  rw [Parser.expression, ternary]
  refine htier.bind fun r _ => ?_
  obtain ⟨condition, us⟩ := r
  unfold branches
  dsimp only
  refine follows_ite ?_ fun hplain => ?_
  · rintro vs rfl
    refine (hn vs).bind fun chosen _ => (follows_unmetered _).bind fun vs' _ => ?_
    exact (hn vs').bind fun other _ => follows_pure _
  · split
    · exact absurd rfl hplain
    · exact follows_pure _

/-- **Counting levels is passing on an allowance**, of the levels up to the
    limit; the fuel has to last for them. -/
theorem follows_readers :
    (∀ room ts fuel depth, room = limit - depth → room ≤ fuel →
      Follows top depth depth (Parser.expression room ts) (expression limit fuel ts)) ∧
    (∀ t room ts fuel depth, room = limit - depth → room ≤ fuel →
      Follows top depth depth (Parser.tier t room ts) (tier limit fuel t ts)) ∧
    (∀ t room left ts fuel base chained, room = limit - (base + chained) → room ≤ fuel →
      Follows top (base + chained) base (Parser.chain t room left ts)
        (chain limit fuel t chained left ts)) ∧
    (∀ t room ts fuel depth, room = limit - depth → room ≤ fuel →
      Follows top depth depth (Parser.operand t room ts) (operand limit fuel t ts)) ∧
    (∀ room ts fuel depth, room = limit - depth → room ≤ fuel →
      Follows top depth depth (Parser.unary room ts) (unary limit fuel ts)) := by
  apply Parser.expression.mutual_induct
  case case1 =>
    intro ts fuel depth h _
    rw [expression_zero]
    unfold expression
    exact follows_enter_refused (by omega) (by omega)
  case case2 =>
    intro ts room ihTier ihExpression fuel depth h hfuel
    obtain ⟨fuel, rfl⟩ := Nat.exists_eq_succ_of_ne_zero (by omega : fuel ≠ 0)
    rw [expression]
    refine follows_enter (by omega) hlimit (follows_leaving ?_)
    exact follows_ternary (ihTier fuel _ (by omega) (by omega)) fun us =>
      ihExpression us fuel _ (by omega) (by omega)
  case case3 =>
    intro t room ts ihOperand ihChain fuel depth h hfuel
    rw [Parser.tier, tier]
    exact (ihOperand fuel depth h hfuel).bind fun r _ => ihChain r.1 r.2 fuel depth 0 h hfuel
  case case4 =>
    intro t room left ts hop fuel base chained h hfuel
    rw [Parser.chain, chain, hop]
    exact follows_leave chained _
  case case5 =>
    intro t left ts op us hop fuel base chained h _
    rw [Parser.chain, chain, hop]
    exact follows_enter_refused (by omega) (by omega)
  case case6 =>
    intro t left ts op us hop room ihOperand ihChain fuel base chained h hfuel
    obtain ⟨fuel, rfl⟩ := Nat.exists_eq_succ_of_ne_zero (by omega : fuel ≠ 0)
    rw [Parser.chain, chain, hop]
    refine follows_enter (by omega) hlimit ?_
    have hright := ihOperand fuel (base + chained + 1) (by omega) (by omega)
    refine hright.bind_of_le (by omega) fun r _ => ?_
    exact ihChain r.1 r.2 fuel base (chained + 1) (by omega) (by omega)
  case case7 =>
    intro t room ts t' ht ihTier fuel depth h hfuel
    rw [operand_of_tighter ht, operand]
    split
    next t'' ht' =>
      cases ht.symm.trans ht'
      exact ihTier fuel depth h hfuel
    next hnone => cases ht.symm.trans hnone
  case case8 =>
    intro t room ts ht ihUnary fuel depth h hfuel
    rw [operand_of_tightest ht, operand]
    split
    next t' ht' => cases ht.symm.trans ht'
    · exact ihUnary fuel depth h hfuel
  case case9 =>
    intro ts op us hsign fuel depth h _
    rw [Parser.unary, unary, hsign]
    exact follows_enter_refused (by omega) (by omega)
  case case10 =>
    intro ts op us hsign room ih fuel depth h hfuel
    obtain ⟨fuel, rfl⟩ := Nat.exists_eq_succ_of_ne_zero (by omega : fuel ≠ 0)
    rw [Parser.unary, unary, hsign]
    refine follows_enter (by omega) hlimit ?_
    exact (follows_leaving (ih fuel _ (by omega) (by omega))).bind fun operand _ => follows_pure _
  case case11 =>
    intro room ts hsign ihExpression fuel depth h hfuel
    rw [unary_unsigned hsign, unary, hsign]
    exact follows_powered hlimit h fun us => ihExpression us fuel depth h hfuel

theorem exists_follows_read (method : Method) (ts : List Token) :
    ∃ x, Follows top depth depth x (method.read limit ts) := by
  obtain ⟨hexpression, htier, -, -, hunary⟩ := follows_readers hlimit
  have hfuel : limit - depth ≤ limit := Nat.sub_le _ _
  have hn (us : List Token) :
      Follows top depth depth (Parser.expression (limit - depth) us) (expression limit limit us) :=
    hexpression _ us limit depth rfl hfuel
  cases method with
  | expression => exact ⟨_, hn ts⟩
  | ternary => exact ⟨_, follows_ternary (htier .or _ ts limit depth rfl hfuel) hn⟩
  | tier t => exact ⟨_, htier t _ ts limit depth rfl hfuel⟩
  | unary => exact ⟨_, hunary _ ts limit depth rfl hfuel⟩
  | powered => exact ⟨_, follows_powered hlimit rfl hn⟩
  | primary => exact ⟨_, follows_primary hn length_expression_le ts⟩
  | rangeTest operand => exact ⟨_, follows_rangeTest hn operand ts⟩
  | glyphCall g => exact ⟨_, follows_glyphCall hn g ts⟩
  | word name => exact ⟨_, follows_word hn length_expression_le name ts⟩
  | selection => exact ⟨_, follows_selection hn ts⟩
  | functionCall name => exact ⟨_, follows_functionCall hn length_expression_le name ts⟩

end

end Counted

/-! ## The counter -/

/-- What a reader leaves behind that has started with the counter at `m`. -/
inductive Balanced (limit : Nat) (m : Meter) : EStateM.Result Stop Meter (Expr × List Token) → Prop
  | answered {r : Expr × List Token} {m' : Meter} (hdepth : m'.depth = m.depth)
      (hpeak : m'.peak ≤ max m.peak (max limit m.depth + 1)) : Balanced limit m (.ok r m')
  | refused {failure : Failure} {m' : Meter} (hdepth : m.depth ≤ m'.depth)
      (hpeak : m'.peak ≤ max m.peak (max limit m.depth + 1)) :
      Balanced limit m (.error (.refused failure) m')

/-- **What is taken from the counter is given back, and no more**: after an answer
    it stands where it stood, after a refusal no lower, and it is never more than
    one level above the limit.  A whole text is read as by the reader with an
    allowance. -/
theorem read_balanced (limit : Nat) :
    (∀ (method : Method) (ts : List Token) (m : Meter),
      Balanced limit m ((method.read limit ts).run m)) ∧
    ∀ ts : List Token, Counted.Ends (limit + 1) 0 (expression limit ts)
      ((Method.expression.read limit ts).run .start) := by
  constructor
  · intro method ts m
    have htop : m.depth < max m.peak (max limit m.depth + 1) := by omega
    have hlimit : limit < max m.peak (max limit m.depth + 1) := by omega
    obtain ⟨x, hx⟩ := Counted.exists_follows_read hlimit method ts
    have hends := hx m rfl htop (Nat.le_max_left _ _)
    generalize (method.read limit ts).run m = result at hends
    cases hends with
    | answered hdepth _ hpeak => exact .answered hdepth hpeak
    | refused hdepth hpeak => exact .refused hdepth hpeak
  · intro ts
    have hfollows := (Counted.follows_readers (Nat.lt_succ_self limit)).1 limit ts limit 0 rfl
    exact hfollows (Nat.le_refl limit) .start rfl (Nat.succ_pos limit) (Nat.zero_le _)

end ProductFormula.Parser
