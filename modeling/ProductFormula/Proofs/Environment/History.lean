/-
  Environments as maps.

  An environment is made from a list of bindings, by writing names one by one,
  and by writing one environment over another (`History`).  Whatever the way, it
  holds for each name the value written last (`History.get?_made`), in the order
  of the names' bytes.  Since the names are in order, a name is looked for no
  further than its place (`replacedValue?_eq_lookup`), and environments that
  answer alike are equal (`eq_iff_get?`).

  * `History.writes` are the bindings that are written, the latest last;
  * `made_ordered_map`: what is made is a map of what was written, and what the
    operations answer.
-/
import Mathlib.Data.List.Dedup
import Mathlib.Data.List.Forall2
import Mathlib.Data.Option.Basic
import ProductFormula.Proofs.Json.Environments
import ProductFormula.Proofs.Text.Bytes

namespace ProductFormula

variable {name other : String} {value : Value} {bindings bindings' : List Binding}

/-! ## Bindings in order -/

/-- A name is not found behind a greater one. -/
theorem lookup_eq_none_of_lt (h : ∀ b ∈ bindings, name < b.1) : bindings.lookup name = none := by
  rw [List.lookup_eq_none_iff]
  intro b hb
  exact bne_iff_ne.2 (h b hb).ne

theorem replacedValue?_eq_lookup (sorted : bindings.Pairwise fun a b => a.1 < b.1) :
    replacedValue? name bindings = bindings.lookup name := by
  induction bindings with
  | nil => rfl
  | cons head rest ih =>
    obtain ⟨other, held⟩ := head
    obtain ⟨habove, hrest⟩ := List.pairwise_cons.1 sorted
    rw [replacedValue?]
    split
    next hlt =>
      -- all names from here on are greater
      refine (lookup_eq_none_of_lt fun b hb => ?_).symm
      rcases List.mem_cons.1 hb with rfl | hb
      · exact hlt
      · exact hlt.trans (habove b hb)
    next hge =>
      split
      next heq => rw [heq, List.lookup_cons_self]
      next hne => rw [List.lookup_cons, beq_false_of_ne hne, ih hrest]

/-- **Bindings in order that answer alike are alike one by one.** -/
theorem forall₂_iff_lookup {r : Value → Value → Prop}
    (sorted : bindings.Pairwise fun a b => a.1 < b.1)
    (sorted' : bindings'.Pairwise fun a b => a.1 < b.1) :
    List.Forall₂ (fun a b => a.1 = b.1 ∧ r a.2 b.2) bindings bindings' ↔
      ∀ name, Option.Rel r (bindings.lookup name) (bindings'.lookup name) := by
  constructor
  · intro h name
    induction h with
    | nil => exact .none
    | @cons a b as bs hab _ ih =>
      obtain ⟨other, v⟩ := a
      obtain ⟨other', v'⟩ := b
      obtain ⟨hname, hvalue⟩ := hab
      obtain rfl : other = other' := hname
      rw [List.lookup_cons, List.lookup_cons]
      split
      · exact .some hvalue
      · exact ih (List.pairwise_cons.1 sorted).2 (List.pairwise_cons.1 sorted').2
  · intro h
    induction bindings generalizing bindings' with
    | nil =>
      cases bindings' with
      | nil => exact .nil
      | cons b bs =>
        have hname := h b.1
        rw [List.lookup_cons_self] at hname
        cases hname
    | cons a as ih =>
      cases bindings' with
      | nil =>
        have hname := h a.1
        rw [List.lookup_cons_self] at hname
        cases hname
      | cons b bs =>
        obtain ⟨habove, hrest⟩ := List.pairwise_cons.1 sorted
        obtain ⟨habove', hrest'⟩ := List.pairwise_cons.1 sorted'
        -- the lesser of the two first names would be bound on one side only
        have hfirst : a.1 = b.1 := by
          rcases lt_trichotomy a.1 b.1 with hlt | heq | hgt
          · have hname := h a.1
            rw [List.lookup_cons_self, lookup_eq_none_of_lt (List.forall_mem_cons.2
              ⟨hlt, fun c hc => hlt.trans (habove' c hc)⟩)] at hname
            cases hname
          · exact heq
          · have hname := h b.1
            rw [List.lookup_cons_self, lookup_eq_none_of_lt (List.forall_mem_cons.2
              ⟨hgt, fun c hc => hgt.trans (habove c hc)⟩)] at hname
            cases hname
        refine .cons ⟨hfirst, ?_⟩ (ih hrest hrest' fun name => ?_)
        · have hname := h a.1
          rw [List.lookup_cons_self, hfirst, List.lookup_cons_self] at hname
          cases hname with
          | some hvalue => exact hvalue
        · have hname := h name
          by_cases heq : name = a.1
          · rw [heq, lookup_eq_none_of_lt habove, lookup_eq_none_of_lt (hfirst ▸ habove')]
            exact .none
          · rw [List.lookup_cons, beq_false_of_ne heq, List.lookup_cons,
              beq_false_of_ne (hfirst ▸ heq)] at hname
            exact hname

/-- The value written last for a name. -/
def lastValue? (writes : List Binding) (name : String) : Option Value := writes.reverse.lookup name

theorem lastValue?_append (writes writes' : List Binding) (name : String) :
    lastValue? (writes ++ writes') name =
      (lastValue? writes' name).or (lastValue? writes name) := by
  rw [lastValue?, List.reverse_append, List.lookup_append]
  rfl

theorem lookup_isSome_iff_mem : (bindings.lookup name).isSome ↔ name ∈ bindings.map (·.1) := by
  rw [List.lookup_isSome_iff, List.mem_map]
  simp only [beq_iff_eq, @eq_comm _ name]

theorem lastValue?_isSome_iff : (lastValue? bindings name).isSome ↔ name ∈ bindings.map (·.1) := by
  rw [lastValue?, lookup_isSome_iff_mem, List.map_reverse, List.mem_reverse]

namespace Environment

variable {env env' : Environment}

/-! ## Operations -/

/-- **What was there before a write** is what was read. -/
theorem exchange_fst (env : Environment) (name : String) (value : Value) :
    (env.exchange name value).1 = env.get? name := replacedValue?_eq_lookup env.sorted

theorem exchange_snd (env : Environment) (name : String) (value : Value) :
    (env.exchange name value).2 = env.set name value := rfl

theorem get?_setAll (env : Environment) (bindings : List Binding) (name : String) :
    (env.setAll bindings).get? name = (lastValue? bindings name).or (env.get? name) := by
  induction bindings generalizing env with
  | nil => rfl
  | cons b bindings ih =>
    have hfirst : (env.set b.1 b.2).get? name = (lastValue? [b] name).or (env.get? name) := by
      rw [get?_set, lastValue?, List.reverse_singleton, List.lookup_cons]
      by_cases h : name = b.1
      · rw [if_pos h, h, beq_self_eq_true]
        rfl
      · rw [if_neg h, beq_false_of_ne h]
        rfl
    rw [setAll, List.foldl_cons, ← setAll, ih, hfirst, ← Option.or_assoc, ← lastValue?_append,
      List.singleton_append]

theorem get?_ofList (bindings : List Binding) (name : String) :
    (ofList bindings).get? name = lastValue? bindings name := by
  rw [ofList, get?_setAll, get?_empty, Option.or_none]

/-- The bindings of the other environment win. -/
theorem get?_extend (env other : Environment) (name : String) :
    (env.extend other).get? name = (other.get? name).or (env.get? name) := by
  rw [extend, get?_setAll, ← get?_ofList, ofList_bindings]

theorem contains_iff_mem_names : env.contains name ↔ name ∈ env.names := lookup_isSome_iff_mem

theorem get?_extend_of_not_mem {other : Environment} (h : name ∉ other.names) :
    (env.extend other).get? name = env.get? name := by
  have hnone : other.get? name = none := by
    rw [← Option.not_isSome_iff_eq_none]
    exact mt contains_iff_mem_names.1 h
  rw [get?_extend, hnone, Option.none_or]

/-! ## Equality -/

/-- **Environments that answer alike are equal.** -/
theorem eq_iff_get? : env = env' ↔ ∀ name, env.get? name = env'.get? name := by
  refine ⟨fun h _ => h ▸ rfl, fun h => ?_⟩
  have hpairs := (forall₂_iff_lookup (r := Eq) env.sorted env'.sorted).2 fun name => by
    rw [← get?, ← get?, h name]
    cases env'.get? name with
    | none => exact .none
    | some v => exact .some rfl
  have hbindings : env.bindings = env'.bindings := by
    rw [← List.forall₂_eq_eq_eq]
    exact hpairs.imp fun a b hab => Prod.ext hab.1 hab.2
  cases env
  cases env'
  cases hbindings
  rfl

/-- Values are compared as values are: NaN is not NaN, and the zeros are one. -/
theorem equals_iff_get? : env.equals env' ↔
    ∀ name, Option.Rel (fun v w => v.strictEquals w) (env.get? name) (env'.get? name) := by
  have hpairs := forall₂_iff_lookup (r := fun v w => v.strictEquals w) env.sorted env'.sorted
  simp only [get?, ← hpairs, List.forall₂_iff_zip, equals, Bool.and_eq_true, List.all_eq_true,
    beq_iff_eq, Prod.forall, size]

/-! ## Histories -/

/-- How an environment is made. -/
inductive History where
  /-- of a list, from front to back -/
  | collected (bindings : List Binding)
  | written (before : History) (name : String) (value : Value)
  /-- another environment written over this one -/
  | extended (before other : History)

namespace History

/-- The environment that is made. -/
def made : History → Environment
  | collected bindings => .ofList bindings
  | written before name value => (before.made.exchange name value).2
  | extended before other => before.made.extend other.made

/-- All bindings that are written, the latest last. -/
def writes : History → List Binding
  | collected bindings => bindings
  | written before name value => before.writes ++ [(name, value)]
  | extended before other => before.writes ++ other.writes

/-- **The value written last is read.** -/
theorem get?_made (h : History) (name : String) :
    h.made.get? name = lastValue? h.writes name := by
  induction h with
  | collected bindings => exact get?_ofList bindings name
  | written before other value ih =>
    have hset : before.made.set other value = before.made.setAll [(other, value)] := rfl
    rw [made, writes, exchange_snd, hset, get?_setAll, ih, lastValue?_append]
  | extended before other ih ih' => rw [made, writes, get?_extend, ih, ih', lastValue?_append]

end History

/-- The environment holds, in the order of their names' bytes, the values that
    were written last. -/
structure Reflects (env : Environment) (writes : List Binding) : Prop where
  increasing : env.names.Pairwise fun a b => Text.bytes a < Text.bytes b
  nodup : env.names.Nodup
  get?_eq : ∀ name, env.get? name = lastValue? writes name
  contains_iff : ∀ name, env.contains name ↔ name ∈ writes.map (·.1)
  size_eq : env.size = (writes.map (·.1)).dedup.length

theorem reflects_of_get? {writes : List Binding}
    (h : ∀ name, env.get? name = lastValue? writes name) : Reflects env writes := by
  have hnames : env.names.Pairwise (· < ·) := List.pairwise_map.2 env.sorted
  have hnodup : env.names.Nodup := hnames.imp fun hlt => hlt.ne
  have hcontains (name : String) : env.contains name ↔ name ∈ writes.map (·.1) := by
    rw [contains, h, lastValue?_isSome_iff]
  refine ⟨hnames.imp Text.bytes_lt_iff.2, hnodup, h, hcontains, ?_⟩
  have hperm : env.names.Perm (writes.map (·.1)).dedup := by
    rw [List.perm_ext_iff_of_nodup hnodup (List.nodup_dedup _)]
    intro name
    rw [List.mem_dedup, ← hcontains, contains_iff_mem_names]
  rw [size, ← hperm.length_eq, names, List.length_map]

/-- **An environment is an ordered map**, whatever its history: what it holds is
    told by the writes, a write answers with what was there and leaves other
    names alone, and equal are environments that answer alike. -/
theorem made_ordered_map (h : History) :
    Reflects h.made h.writes ∧
      (∀ name value, (h.made.exchange name value).1 = h.made.get? name ∧
        ∀ other, other ≠ name → (h.made.exchange name value).2.get? other = h.made.get? other) ∧
      (∀ (h' : History) (name : String), name ∉ h'.made.names →
        (h.made.extend h'.made).get? name = h.made.get? name) ∧
      ∀ h' : History, (h.made = h'.made ↔ ∀ name, h.made.get? name = h'.made.get? name) ∧
        (h.made.equals h'.made ↔
          ∀ name, Option.Rel (fun v w => v.strictEquals w) (h.made.get? name)
            (h'.made.get? name)) := by
  refine ⟨reflects_of_get? h.get?_made, fun name value => ⟨exchange_fst _ _ _, ?_⟩,
    fun h' name hname => get?_extend_of_not_mem hname, fun h' => ⟨eq_iff_get?, equals_iff_get?⟩⟩
  intro other hother
  rw [exchange_snd, get?_set, if_neg hother]

end Environment

end ProductFormula
