/-
  Environments: names and the values they stand for.

  The bindings are kept in the order of their names, each name once
  (`Environment.sorted`), so equal environments have equal lists.  Names are
  ordered by their characters, which is the order of their UTF-8 bytes.

  * `Environment.set` writes a name, `Environment.exchange` also says what was
    there, and `Environment.extend` writes the bindings of another environment;
    `Environment.ofList` writes a list from front to back, so that the last value
    of a name stays;
  * `get?_set` says what is read after a write.
-/
import ProductFormula.Value

namespace ProductFormula

/-- A name and its value. -/
abbrev Binding := String × Value

/-! ## Lists of bindings -/

/-- The binding written into its place, over one of the same name. -/
def insertBinding (name : String) (value : Value) : List Binding → List Binding
  | [] => [(name, value)]
  | (other, held) :: rest =>
    if name < other then (name, value) :: (other, held) :: rest
    else if name = other then (name, value) :: rest
    else (other, held) :: insertBinding name value rest

/-- The value that such a binding takes the place of. -/
def replacedValue? (name : String) : List Binding → Option Value
  | [] => none
  | (other, held) :: rest =>
    if name < other then none
    else if name = other then some held
    else replacedValue? name rest

theorem mem_insertBinding {name : String} {value : Value} {bindings : List Binding}
    {b : Binding} (h : b ∈ insertBinding name value bindings) :
    b = (name, value) ∨ b ∈ bindings := by
  induction bindings with
  | nil => exact Or.inl (List.mem_singleton.1 h)
  | cons head rest ih =>
    obtain ⟨other, held⟩ := head
    simp only [insertBinding] at h
    split at h
    · exact List.mem_cons.1 h
    · split at h
      · rcases List.mem_cons.1 h with h | h
        · exact Or.inl h
        · exact Or.inr (List.mem_cons_of_mem _ h)
      · rcases List.mem_cons.1 h with h | h
        · exact Or.inr (h ▸ List.mem_cons_self)
        · rcases ih h with h | h
          · exact Or.inl h
          · exact Or.inr (List.mem_cons_of_mem _ h)

theorem pairwise_insertBinding (name : String) (value : Value) {bindings : List Binding}
    (h : bindings.Pairwise fun a b => a.1 < b.1) :
    (insertBinding name value bindings).Pairwise fun a b => a.1 < b.1 := by
  induction bindings with
  | nil => exact List.pairwise_singleton _ _
  | cons head rest ih =>
    obtain ⟨other, held⟩ := head
    obtain ⟨above, sorted⟩ := List.pairwise_cons.1 h
    simp only [insertBinding]
    split
    next before =>
      refine List.pairwise_cons.2 ⟨fun b mem => ?_, h⟩
      rcases List.mem_cons.1 mem with rfl | mem
      · exact before
      · exact String.lt_trans before (above b mem)
    next notBefore =>
      split
      next same => exact List.pairwise_cons.2 ⟨fun b mem => same ▸ above b mem, sorted⟩
      next different =>
        refine List.pairwise_cons.2 ⟨fun b mem => ?_, ih sorted⟩
        rcases mem_insertBinding mem with rfl | mem
        · exact Std.lt_of_le_of_ne (String.not_lt.1 notBefore) (Ne.symm different)
        · exact above b mem

theorem lookup_insertBinding (name other : String) (value : Value) (bindings : List Binding) :
    (insertBinding name value bindings).lookup other =
      if other = name then some value else bindings.lookup other := by
  by_cases h : other = name
  · subst h
    rw [if_pos rfl]
    induction bindings with
    | nil => simp only [insertBinding, List.lookup_cons, beq_self_eq_true]
    | cons head rest ih =>
      obtain ⟨held, old⟩ := head
      simp only [insertBinding]
      split
      · simp only [List.lookup_cons, beq_self_eq_true]
      · split
        · simp only [List.lookup_cons, beq_self_eq_true]
        next different => rw [List.lookup_cons, beq_false_of_ne different, ih]
  · rw [if_neg h]
    have differs : (other == name) = false := beq_false_of_ne h
    induction bindings with
    | nil => simp only [insertBinding, List.lookup_cons, differs]
    | cons head rest ih =>
      obtain ⟨held, old⟩ := head
      simp only [insertBinding]
      split
      · rw [List.lookup_cons, differs]
      · split
        next same =>
          subst same
          rw [List.lookup_cons, List.lookup_cons, differs]
        · rw [List.lookup_cons, List.lookup_cons, ih]

/-! ## Environments -/

/-- Bindings in the order of their names. -/
structure Environment where
  bindings : List Binding
  sorted : bindings.Pairwise fun a b => a.1 < b.1
deriving DecidableEq

namespace Environment

def empty : Environment := ⟨[], .nil⟩

instance : Inhabited Environment := ⟨empty⟩

def get? (env : Environment) (name : String) : Option Value :=
  env.bindings.lookup name

def contains (env : Environment) (name : String) : Bool :=
  (env.get? name).isSome

/-- The environment with one name written. -/
def set (env : Environment) (name : String) (value : Value) : Environment :=
  ⟨insertBinding name value env.bindings, pairwise_insertBinding name value env.sorted⟩

/-- The value that a name had, and the environment with the name written. -/
def exchange (env : Environment) (name : String) (value : Value) : Option Value × Environment :=
  (replacedValue? name env.bindings, env.set name value)

def size (env : Environment) : Nat := env.bindings.length

def isEmpty (env : Environment) : Bool := env.bindings.isEmpty

/-- The names in order. -/
def names (env : Environment) : List String := env.bindings.map (·.1)

/-- The bindings of a list written one after the other. -/
def setAll (env : Environment) (bindings : List Binding) : Environment :=
  bindings.foldl (fun env b => env.set b.1 b.2) env

def ofList (bindings : List Binding) : Environment := empty.setAll bindings

/-- The environment with the bindings of another one written over it. -/
def extend (env other : Environment) : Environment := env.setAll other.bindings

/-- The same names with strictly equal values. -/
def equals (env other : Environment) : Bool :=
  env.size == other.size &&
    (env.bindings.zip other.bindings).all fun (a, b) => a.1 == b.1 && a.2.strictEquals b.2

@[simp] theorem get?_empty (name : String) : empty.get? name = none := rfl

theorem get?_set (env : Environment) (name other : String) (value : Value) :
    (env.set name value).get? other =
      if other = name then some value else env.get? other :=
  lookup_insertBinding name other value env.bindings

end Environment

end ProductFormula
