/-
  Returns of a text.

  The names in a text that is returned are read twice: by the check of
  references, and when the text is filled.  The two agree on every reference but
  a caret alone, which the check takes for an optional one and the filling for a
  name (`Segment.fill_of_bound`).  A text whose check passes hence has a value
  unless it holds `{^}` and nothing is bound to the caret
  (`text_return_isOk_iff`).
-/
import ProductFormula.Proofs.Calculation.References
import ProductFormula.Proofs.Expr.Substitution
import ProductFormula.Proofs.Reference.Dots
import ProductFormula.Proofs.Reference.Templates

namespace ProductFormula

open Calculation

variable {ctx : Context} {text : List Char}

namespace Segment

/-! ## References -/

theorem fill_braced_isOk_iff {inner : List Char} :
    (∃ filled, (braced inner).fill ctx = .ok filled) ↔
      ∃ v, ctx.resolve (referent inner).1 (referent inner).2 = .ok v := by
  constructor
  · rintro ⟨filled, h⟩
    obtain ⟨v, hv, -⟩ := bind_eq_ok.1 h
    exact ⟨v, hv⟩
  · rintro ⟨v, hv⟩
    exact ⟨v.display.toList, bind_eq_ok.2 ⟨v, hv, rfl⟩⟩

/-- The name that the check of references asks for is bound, if it asks. -/
def Checked (ctx : Context) (s : Segment) : Prop :=
  ∀ name, s.requiredName? = some name → ∃ v, ctx.resolve name false = .ok v

/-- **The check and the filling read a reference alike**, unless it is a caret
    alone. -/
theorem fill_of_checked {s : Segment} (h : s.Checked ctx) (hcaret : s ≠ .braced ['^']) :
    ∃ filled, s.fill ctx = .ok filled := by
  cases s with
  | plain c => exact ⟨[c], rfl⟩
  | braced inner =>
    rw [fill_braced_isOk_iff]
    by_cases hhead : inner.head? = some '^'
    · obtain ⟨name, rfl⟩ := List.head?_eq_some_iff.1 hhead
      obtain ⟨c, name, rfl⟩ : ∃ c more, name = c :: more :=
        List.exists_cons_of_ne_nil fun hnil => hcaret (by rw [hnil])
      exact ⟨_, rfl⟩
    · have hreferent : referent inner = (.ofList inner, false) := by
        rw [referent]
        rintro c name rfl
        exact hhead rfl
      rw [hreferent]
      exact h _ (if_neg hhead)

/-- A caret alone is a name to the filling. -/
theorem fill_caret_isOk_iff :
    (∃ filled, (braced ['^']).fill ctx = .ok filled) ↔ ∃ v, ctx.env.get? "^" = some v := by
  have hlookup : ctx.lookupName "^" = "^" := lookupName_eq_self fun _ => by decide
  rw [fill_braced_isOk_iff]
  change (∃ v, ctx.resolve "^" false = .ok v) ↔ _
  cases hget : ctx.env.get? "^" with
  | none => simp [Context.resolve, hlookup, hget]
  | some v => simp [Context.resolve, hlookup, hget]

/-- Checked segments are filled, or the caret is missing. -/
theorem failsWith_fill {s : Segment} (h : s.Checked ctx) :
    FailsWith (· = .missingVariable "^") (s.fill ctx) := by
  by_cases hcaret : s = .braced ['^']
  · subst hcaret
    intro error herror
    rcases bind_eq_error.1 herror with hresolve | ⟨v, -, hreturn⟩
    · exact (Context.resolve_eq_error hresolve).2
    · cases hreturn
  · obtain ⟨filled, hfilled⟩ := fill_of_checked h hcaret
    rw [hfilled]
    exact failsWith_ok _

end Segment

/-! ## The statement -/

/-- The check of a text passes iff the names of all its segments are bound. -/
theorem checkBound_requiredNames_iff : checkBound ctx (requiredNames text) = .ok () ↔
    ∀ s ∈ Segment.ofText text, s.Checked ctx := by
  rw [checkBound_eq_ok_iff, requiredNames]
  constructor
  · intro h s hs name hname
    exact h name (List.mem_filterMap.2 ⟨s, hs, hname⟩)
  · intro h name hmem
    obtain ⟨s, hs, hname⟩ := List.mem_filterMap.1 hmem
    exact h s hs name hname

/-- A return of a text has a value iff all segments are filled. -/
theorem perform_returnText_isOk_iff {maxDepth : Nat} :
    (∃ filled, perform maxDepth ctx (.returnText text) = .ok (.returns (.text filled))) ↔
      ∀ s ∈ Segment.ofText text, ∃ filled, s.fill ctx = .ok filled := by
  rw [← Segment.fillAll_isOk_iff]
  constructor
  · rintro ⟨filled, h⟩
    obtain ⟨_, hfilled, -⟩ := bind_eq_ok.1 h
    obtain ⟨chars, hchars, -⟩ := bind_eq_ok.1 hfilled
    exact ⟨chars, hchars⟩
  · rintro ⟨chars, hchars⟩
    have hfilled : interpolate ctx text = .ok (.ofList chars) :=
      bind_eq_ok.2 ⟨chars, hchars, rfl⟩
    exact ⟨.ofList chars, bind_eq_ok.2 ⟨_, hfilled, rfl⟩⟩

/-- **A return of a text that passes the check has a value** iff it holds no
    caret alone in braces or something is bound to the caret, and else the caret
    is what it misses. -/
theorem text_return_isOk_iff
    (hcheck : checkBound ctx (requiredNames ('=' :: '#' :: text)) = .ok ()) (maxDepth : Nat) :
    ((∃ filled, perform maxDepth ctx (.ofText ('=' :: '#' :: text)) =
        .ok (.returns (.text filled))) ↔
      (.braced ['^'] ∈ Segment.ofText text → ∃ v, ctx.env.get? "^" = some v)) ∧
    ∀ error, perform maxDepth ctx (.ofText ('=' :: '#' :: text)) = .error error →
      error = .missingVariable "^" := by
  rw [requiredNames_plain (by decide), requiredNames_plain (by decide),
    checkBound_requiredNames_iff] at hcheck
  constructor
  · rw [Statement.ofText, perform_returnText_isOk_iff]
    constructor
    · intro hfill hcaret
      exact Segment.fill_caret_isOk_iff.1 (hfill _ hcaret)
    · intro hbound s hs
      by_cases hcaret : s = .braced ['^']
      · subst hcaret
        exact Segment.fill_caret_isOk_iff.2 (hbound hs)
      · exact Segment.fill_of_checked (hcheck s hs) hcaret
  · have hfill := Segment.failsWith_fillAll fun s hs => Segment.failsWith_fill (hcheck s hs)
    exact (hfill.bind fun _ => failsWith_ok _).bind fun _ => failsWith_ok _

/-- Lone braces, an optional name with a caret of its own, and a name with a dot. -/
theorem text_return_filled :
    let text := "a\x7b\x7d\x7b^^b\x7d\x7bC.D\x7d\x7b".toList
    let ctx : Context := ⟨.ofList [("CD", .text "\x7b^\x7d")], true⟩
    checkBound ctx (requiredNames ('=' :: '#' :: text)) = .ok () ∧
      .braced ['^'] ∉ Segment.ofText text ∧
      ∃ filled, perform 128 ctx (.ofText ('=' :: '#' :: text)) = .ok (.returns (.text filled)) := by
  intro text ctx
  have hcheck : checkBound ctx (requiredNames ('=' :: '#' :: text)) = .ok () := by decide +kernel
  have hcaret : .braced ['^'] ∉ Segment.ofText text := by decide +kernel
  exact ⟨hcheck, hcaret, (text_return_isOk_iff hcheck 128).1.2 fun hmem => absurd hmem hcaret⟩

/-- `=#{^}` passes the check and misses the caret. -/
theorem caret_return_fails :
    checkBound ⟨.empty, true⟩ (requiredNames "=#\x7b^\x7d".toList) = .ok () ∧
      perform 128 ⟨.empty, true⟩ (.ofText "=#\x7b^\x7d".toList) =
        .error (.missingVariable "^") := by
  exact ⟨by decide +kernel, by decide +kernel⟩

end ProductFormula
