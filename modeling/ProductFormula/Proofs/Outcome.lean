/-
  Outcomes of computations that can fail.

  A computation of two steps has a value iff both steps have one
  (`bind_eq_ok`), and fails iff the first step fails or the second one does
  (`bind_eq_error`), hence in the ways its steps can fail (`FailsWith.bind`).

  Two computations whose steps agree agree themselves: `Persists` says that the
  second ends as the first one does, unless the first was cut off.
-/

namespace ProductFormula

variable {ε α β : Type} {x : Except ε α} {f : α → Except ε β}

theorem bind_eq_ok {b : β} : (x >>= f) = .ok b ↔ ∃ a, x = .ok a ∧ f a = .ok b := by
  cases x with
  | error e => simp [bind, Except.bind]
  | ok a => simp [bind, Except.bind]

theorem bind_eq_error {e : ε} :
    (x >>= f) = .error e ↔ x = .error e ∨ ∃ a, x = .ok a ∧ f a = .error e := by
  cases x with
  | error e' => simp [bind, Except.bind]
  | ok a => simp [bind, Except.bind]

/-- Only errors of this kind can come out. -/
def FailsWith (p : ε → Prop) (x : Except ε α) : Prop := ∀ e, x = .error e → p e

variable {p : ε → Prop}

theorem failsWith_ok (a : α) : FailsWith p (.ok a : Except ε α) := by
  intro e h
  cases h

theorem failsWith_error {e : ε} (h : p e) : FailsWith p (.error e : Except ε α) := by
  intro e' h'
  cases h'
  exact h

theorem FailsWith.bind (hx : FailsWith p x) (hf : ∀ a, FailsWith p (f a)) :
    FailsWith p (x >>= f) := by
  intro e h
  rcases bind_eq_error.1 h with h | ⟨a, -, h⟩
  · exact hx e h
  · exact hf a e h

/-! ## Values and errors together -/

/-- Errors of the one kind, and values of the other. -/
def Meets (p : ε → Prop) (q : α → Prop) : Except ε α → Prop
  | .ok a => q a
  | .error e => p e

variable {q : α → Prop} {r : β → Prop}

theorem Meets.bind (hx : Meets p q x) (hf : ∀ a, q a → Meets p r (f a)) : Meets p r (x >>= f) := by
  cases x with
  | error e => exact hx
  | ok a => exact hf a hx

/-! ## Two computations -/

/-- The second computation ends as the first one does, unless that one was cut
    off. -/
def Persists (cut : ε → Prop) (x x' : Except ε α) : Prop :=
  FailsWith (fun e => ¬ cut e) x → x' = x

variable {cut : ε → Prop} {x' : Except ε α} {f' : α → Except ε β}

theorem Persists.refl (x : Except ε α) : Persists cut x x := fun _ => rfl

theorem Persists.bind (hx : Persists cut x x') (hf : ∀ a, Persists cut (f a) (f' a)) :
    Persists cut (x >>= f) (x' >>= f') := by
  intro h
  cases x with
  | error e =>
    have hsame : x' = .error e := hx (failsWith_error (h e rfl))
    rw [hsame]
    rfl
  | ok a =>
    have hsame : x' = .ok a := hx (failsWith_ok a)
    rw [hsame]
    exact hf a h

end ProductFormula
