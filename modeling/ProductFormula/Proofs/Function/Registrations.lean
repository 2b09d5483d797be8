/-
  What a registry finds.

  A function is kept under its name in capitals and looked for under a canonical
  name, which is also without `Math.` in front.  The two agree except for
  functions whose own name starts with `Math.` (`upperCase_eq_canonicalName_iff`).
  Without these a registry finds the function registered last of those with the
  same canonical name; a function with such a name is not found under it.

  * `get?_registerAll`: what is found after any registrations;
  * `finds_last_named_iff`: the registrations after which all names are looked
    up as they should.
-/
import Mathlib.Data.List.Induction
import Mathlib.Data.List.Nodup
import ProductFormula.Function.Registry

namespace ProductFormula

/-! ## Keys -/

/-- The name has `Math.` in front. -/
def StartsWithMath (name : String) : Prop := ['M', 'a', 't', 'h', '.'] <+: name.toList

instance (name : String) : Decidable (StartsWithMath name) :=
  inferInstanceAs (Decidable (_ <+: _))

theorem dropMath_eq_self {cs : List Char} (h : ¬ ['M', 'a', 't', 'h', '.'] <+: cs) :
    dropMath cs = cs := by
  unfold dropMath
  split
  next name => exact absurd (List.prefix_append ['M', 'a', 't', 'h', '.'] name) h
  · rfl

/-- **A function is kept under its canonical name**, if `Math.` is no part of its
    name. -/
theorem upperCase_eq_canonicalName_iff {name : String} :
    Text.upperCase name = canonicalName name ↔ ¬ StartsWithMath name := by
  constructor
  · rintro h ⟨rest, hrest⟩
    -- the capitals of `Math.` are too much
    have hdrop : dropMath name.toList = rest := by rw [← hrest]; rfl
    have hlength := congrArg (fun s => s.toList.length) h
    simp only [canonicalName, Text.upperCase, String.toList_ofList, hdrop] at hlength
    rw [← hrest, List.flatMap_append, List.length_append] at hlength
    have hmath : (['M', 'a', 't', 'h', '.'].flatMap Text.capital).length = 5 := by decide
    omega
  · intro h
    rw [canonicalName, dropMath_eq_self h, String.ofList_toList]

namespace Registry

variable {registry : Registry} {f g : Function} {fs : List Function} {name : String}

/-! ## Registrations -/

/-- The functions registered one after the other. -/
def registerAll (registry : Registry) (fs : List Function) : Registry := fs.foldl register registry

theorem registerAll_concat (registry : Registry) (fs : List Function) (f : Function) :
    registry.registerAll (fs ++ [f]) = (registry.registerAll fs).register f := by
  rw [registerAll, List.foldl_append]
  rfl

theorem standard_eq : standard = empty.registerAll Function.builtins := rfl

theorem registerAll_standard (fs : List Function) :
    standard.registerAll fs = empty.registerAll (Function.builtins ++ fs) := by
  rw [standard_eq, registerAll, registerAll, registerAll, List.foldl_append]

/-- **The last function kept under the canonical name is found.** -/
theorem get?_registerAll (fs : List Function) (name : String) :
    (empty.registerAll fs).get? name =
      (fs.filter fun f => Text.upperCase f.name == canonicalName name).getLast? := by
  induction fs using List.reverseRecOn with
  | nil => rfl
  | append_singleton fs f ih =>
    rw [registerAll_concat, get?_register, ih, List.filter_append, List.filter_cons,
      List.filter_nil]
    by_cases h : canonicalName name = Text.upperCase f.name
    · rw [if_pos h, h, beq_self_eq_true, if_pos rfl, List.getLast?_concat]
    · rw [if_neg h, beq_false_of_ne (Ne.symm h), if_neg Bool.false_ne_true, List.append_nil]

/-- The last of the functions with this canonical name. -/
def lastNamed? (fs : List Function) (name : String) : Option Function :=
  (fs.filter fun f => canonicalName f.name == canonicalName name).getLast?

theorem get?_registerAll_eq_lastNamed? (h : ∀ f ∈ fs, ¬ StartsWithMath f.name) (name : String) :
    (empty.registerAll fs).get? name = lastNamed? fs name := by
  have hkeys : fs.filter (fun f => Text.upperCase f.name == canonicalName name) =
      fs.filter fun f => canonicalName f.name == canonicalName name :=
    List.filter_congr fun f hf => by rw [upperCase_eq_canonicalName_iff.2 (h f hf)]
  rw [get?_registerAll, hkeys, lastNamed?]

theorem not_startsWithMath_builtins : ∀ f ∈ Function.builtins, ¬ StartsWithMath f.name := by
  decide

/-- A function whose key no other one has is found. -/
theorem get?_registerAll_of_mem (hkeys : (fs.map fun f => Text.upperCase f.name).Nodup)
    (hf : f ∈ fs) (hmath : ¬ StartsWithMath f.name) :
    (empty.registerAll fs).get? f.name = some f := by
  have hkey : Text.upperCase f.name = canonicalName f.name := upperCase_eq_canonicalName_iff.2 hmath
  have hmem : f ∈ fs.filter fun g => Text.upperCase g.name == canonicalName f.name :=
    List.mem_filter.2 ⟨hf, beq_iff_eq.2 hkey⟩
  rw [get?_registerAll, List.getLast?_eq_some_getLast (List.ne_nil_of_mem hmem)]
  obtain ⟨hlast, hname⟩ := List.mem_filter.1 (List.getLast_mem (List.ne_nil_of_mem hmem))
  exact congrArg some (List.inj_on_of_nodup_map hkeys hlast hf ((eq_of_beq hname).trans hkey.symm))

theorem get?_builtin (hf : f ∈ Function.builtins) : standard.get? f.name = some f :=
  get?_registerAll_of_mem (by decide +kernel) hf (not_startsWithMath_builtins f hf)

theorem name_of_get?_registerAll (h : (empty.registerAll fs).get? name = some f) :
    Text.upperCase f.name = canonicalName name := by
  rw [get?_registerAll] at h
  exact eq_of_beq (List.mem_filter.1 (List.mem_of_getLast? h)).2

/-- A function is found under its name unless it starts with `Math.` -/
theorem get?_register_self_iff (fs : List Function) (f : Function) :
    ((empty.registerAll fs).register f).get? f.name = some f ↔ ¬ StartsWithMath f.name := by
  rw [← upperCase_eq_canonicalName_iff, ← registerAll_concat]
  refine ⟨name_of_get?_registerAll, fun h => ?_⟩
  rw [registerAll_concat, get?_register, if_pos h.symm]

theorem get?_register_of_ne (hf : ¬ StartsWithMath f.name)
    (h : canonicalName name ≠ canonicalName f.name) :
    (registry.register f).get? name = registry.get? name := by
  rw [get?_register, if_neg]
  rwa [upperCase_eq_canonicalName_iff.2 hf]

/-- **Lookups find what was registered last** under a name with the same
    canonical form, at every point of a sequence of registrations, iff none of
    the functions has `Math.` in front of its name.  Each such function is found
    under its own name right away, and changes nothing for other names. -/
theorem finds_last_named_iff (fs : List Function) :
    ((∀ front, front <+: fs → ∀ name,
        (standard.registerAll front).get? name = lastNamed? (Function.builtins ++ front) name) ↔
      ∀ f ∈ fs, ¬ StartsWithMath f.name) ∧
    ∀ f, (((standard.registerAll fs).register f).get? f.name = some f ↔
        ¬ StartsWithMath f.name) ∧
      (¬ StartsWithMath f.name → ∀ name, canonicalName name ≠ canonicalName f.name →
        ((standard.registerAll fs).register f).get? name =
          (standard.registerAll fs).get? name) := by
  refine ⟨⟨fun h f hf => ?_, fun h front hfront name => ?_⟩, fun f => ⟨?_, ?_⟩⟩
  · -- right after the registration of that function
    obtain ⟨front, back, rfl⟩ := List.append_of_mem hf
    have hfound := h (front ++ [f]) ⟨back, by simp⟩ f.name
    have hlast : lastNamed? (Function.builtins ++ (front ++ [f])) f.name = some f := by
      rw [lastNamed?, ← List.append_assoc, List.filter_append, List.filter_cons,
        beq_self_eq_true, if_pos rfl, List.filter_nil, List.getLast?_concat]
    rw [registerAll_concat, registerAll_standard] at hfound
    exact (get?_register_self_iff _ f).1 (hfound.trans hlast)
  · rw [registerAll_standard]
    refine get?_registerAll_eq_lastNamed? (List.forall_mem_append.2 ⟨?_, fun f hf => ?_⟩) name
    · exact not_startsWithMath_builtins
    · exact h f (hfront.subset hf)
  · rw [registerAll_standard]
    exact get?_register_self_iff _ f
  · exact fun hf name hname => get?_register_of_ne hf hname

/-- `Math.half` is registered, and not found under its name. -/
theorem unfound_math_half :
    let half := Function.ofUnary "Math.half" fun n => n.div (.ofNat 2)
    ((standard.register half).get? half.name).isNone ∧
      ((lastNamed? (Function.builtins ++ [half]) half.name).map (·.name)) = some "Math.half" := by
  decide +kernel

end Registry

end ProductFormula
