/-
  The least and the greatest number.

  Both functions go through the numbers and keep the first of two in an order,
  `≤` for the one and `≥` for the other, from the infinity on that comes last in
  it (`Selects`).  What they keep in the end comes first among the numbers
  (`First`): the infinity is left only if it is one of them.

  * `Function.Selects.first_extreme`: the number kept of any numbers but NaN;
  * `Function.Selects.position?_extreme_of_perm`: it has one place whatever the
    order of the numbers, hence differs at most in the sign of a zero.
-/
import ProductFormula.Function.Builtin
import ProductFormula.Proofs.Number.Order

namespace ProductFormula.Function

open Number

variable {before : Number → Number → Prop} {pick : Number → Number → Number}
  {seed acc n : Number} {numbers numbers' : List Number}

/-! ## Orders -/

/-- One of the numbers, and before all of them. -/
structure First (before : Number → Number → Prop) (numbers : List Number) (n : Number) : Prop where
  mem : n ∈ numbers
  before : ∀ m ∈ numbers, before n m

/-- `pick` keeps the first of two numbers in an order of all numbers but NaN, in
    which `seed` comes last. -/
structure Selects (before : Number → Number → Prop) (pick : Number → Number → Number)
    (seed : Number) : Prop where
  trans : ∀ {a b c}, before a b → before b c → before a c
  total : ∀ {a b}, a ≠ nan → b ≠ nan → before a b ∨ before b a
  samePlace : ∀ {a b}, before a b → before b a → a.position? = b.position?
  pick_cases : ∀ a b, pick a b = a ∧ before a b ∨ pick a b = b ∧ ¬ before a b
  seed_ne_nan : seed ≠ nan
  before_seed : ∀ {a}, a ≠ nan → before a seed
  eq_seed : ∀ {a}, a.position? = seed.position? → a = seed

theorem kept_cases (test : Bool) (a b : Number) :
    (if test then a else b) = a ∧ test ∨ (if test then a else b) = b ∧ ¬ test := by
  cases test <;> simp

theorem selects_min : Selects (fun a b => a.le b) Number.min (infinite false) where
  trans := le_trans
  total := le_total
  samePlace := position?_eq_of_le
  pick_cases a b := kept_cases (a.le b) a b
  seed_ne_nan := Number.noConfusion
  before_seed := le_infinite
  eq_seed := eq_infinite_of_position?

theorem selects_max : Selects (fun a b => b.le a) Number.max (infinite true) where
  trans h h' := le_trans h' h
  total ha hb := le_total hb ha
  samePlace h h' := position?_eq_of_le h' h
  pick_cases a b := kept_cases (b.le a) a b
  seed_ne_nan := Number.noConfusion
  before_seed := infinite_le
  eq_seed := eq_infinite_of_position?

/-! ## The first number -/

/-- The first of what is kept and the numbers to come is the first of them all. -/
theorem Selects.first_step (h : Selects before pick seed) {m : Number} (hacc : acc ≠ nan)
    (hm : m ≠ nan) (hfirst : First before (pick acc m :: numbers) n) :
    First before (acc :: m :: numbers) n := by
  obtain ⟨hmem, hbefore⟩ := hfirst
  obtain ⟨hkept, hothers⟩ := List.forall_mem_cons.1 hbefore
  -- the one that is not kept comes after the one that is
  rcases h.pick_cases acc m with ⟨hpick, horder⟩ | ⟨hpick, hnot⟩
  · rw [hpick] at hmem hkept
    refine ⟨?_, List.forall_mem_cons.2 ⟨hkept, List.forall_mem_cons.2 ⟨?_, hothers⟩⟩⟩
    · exact (List.mem_cons.1 hmem).elim (· ▸ List.mem_cons_self) fun hmem =>
        List.mem_cons_of_mem _ (List.mem_cons_of_mem _ hmem)
    · exact h.trans hkept horder
  · rw [hpick] at hmem hkept
    have horder : before m acc := (h.total hacc hm).resolve_left hnot
    exact ⟨List.mem_cons_of_mem _ hmem,
      List.forall_mem_cons.2 ⟨h.trans hkept horder, List.forall_mem_cons.2 ⟨hkept, hothers⟩⟩⟩

theorem Selects.first_foldl (h : Selects before pick seed) (hacc : acc ≠ nan)
    (hnan : nan ∉ numbers) : First before (acc :: numbers) (numbers.foldl pick acc) := by
  induction numbers generalizing acc with
  | nil =>
    have hself : before acc acc := (h.total hacc hacc).elim id id
    exact ⟨List.mem_cons_self, by simpa using hself⟩
  | cons m numbers ih =>
    have hm : m ≠ nan := (List.ne_of_not_mem_cons hnan).symm
    have hkept : pick acc m ≠ nan := by
      rcases h.pick_cases acc m with ⟨hpick, -⟩ | ⟨hpick, -⟩
      · rwa [hpick]
      · rwa [hpick]
    exact h.first_step hacc hm (ih hkept (List.not_mem_of_not_mem_cons hnan))

/-- **What is kept comes first among the numbers**; the seed does not count. -/
theorem Selects.first_extreme (h : Selects before pick seed) (hne : numbers ≠ [])
    (hnan : nan ∉ numbers) : First before numbers (extreme seed pick numbers) := by
  rw [extreme, if_neg (by simpa [isNaN_iff] using hnan)]
  obtain ⟨hmem, hbefore⟩ := h.first_foldl h.seed_ne_nan hnan
  have hothers := (List.forall_mem_cons.1 hbefore).2
  refine ⟨?_, hothers⟩
  rcases List.mem_cons.1 hmem with hseed | hmem
  · -- the seed is left only if all numbers stand in its place
    obtain ⟨m, rest, rfl⟩ := List.exists_cons_of_ne_nil hne
    have hm : m ≠ nan := (List.ne_of_not_mem_cons hnan).symm
    have hbefore : before seed m := hseed ▸ hothers m List.mem_cons_self
    rw [hseed, ← h.eq_seed (h.samePlace (h.before_seed hm) hbefore)]
    exact List.mem_cons_self
  · exact hmem

theorem extreme_nan (h : nan ∈ numbers) : extreme seed pick numbers = nan := by
  rw [extreme, if_pos (List.any_eq_true.2 ⟨nan, h, rfl⟩)]

/-- **The order of the numbers does not count**, but for the sign of a zero. -/
theorem Selects.position?_extreme_of_perm (h : Selects before pick seed)
    (hperm : numbers.Perm numbers') :
    (extreme seed pick numbers).position? = (extreme seed pick numbers').position? := by
  by_cases hnan : nan ∈ numbers
  · rw [extreme_nan hnan, extreme_nan (hperm.mem_iff.1 hnan)]
  by_cases hnil : numbers = []
  · obtain rfl := hnil
    rw [List.nil_perm.1 hperm]
  · have hfirst := h.first_extreme hnil hnan
    have hfirst' := h.first_extreme (fun heq => hnil (heq ▸ hperm).eq_nil)
      (fun hmem => hnan (hperm.mem_iff.2 hmem))
    exact h.samePlace (hfirst.before _ (hperm.mem_iff.2 hfirst'.mem))
      (hfirst'.before _ (hperm.mem_iff.1 hfirst.mem))

end ProductFormula.Function
