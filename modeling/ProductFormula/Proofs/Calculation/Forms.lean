/-
  What a statement is made of.

  An expression stands at the end of its statement, and in front of it there is
  the sign of a return, or the name that is assigned in its brackets, blanks and
  an equals sign (`Statement.exists_front`).

  * `Assigns` spells an assignment out, and `ofText_eq_assignment_iff` says that
    these are the texts taken for one: the name is what stands between the
    brackets, as it stands.
-/
import ProductFormula.Proofs.Reference.Braces
import ProductFormula.Proofs.Text.Trim
import ProductFormula.Statement

namespace ProductFormula.Statement

open Text

variable {cs expression name rest : List Char} {assigned : String}

/-! ## Parts of a statement -/

/-- The text of the expression that is evaluated, if there is one. -/
def expression? : Statement → Option (List Char)
  | returnValue expression | assignment _ expression => some expression
  | _ => none

/-- The characters of the name that is assigned, none if nothing is. -/
def target : Statement → List Char
  | assignment name _ => name.toList
  | _ => []

/-! ## Returns -/

theorem ofText_eq_returnText {text : List Char} (h : ofText cs = .returnText text) :
    cs = '=' :: '#' :: text := by
  unfold ofText at h
  split at h
  · cases h
    rfl
  · cases h
  · split at h <;> cases h

theorem ofText_returnValue (h : expression.head? ≠ some '#') :
    ofText ('=' :: expression) = .returnValue expression := by
  rw [ofText]
  rintro text rfl
  exact h rfl

/-! ## Assignments -/

/-- The text is `[name] = expression`, with any blanks around the sign. -/
structure Assigns (name : String) (expression cs : List Char) : Prop where
  written : ∃ before after,
    cs = '[' :: (name.toList ++ ']' :: (before ++ '=' :: (after ++ expression))) ∧
      (∀ c ∈ before, isBlank c) ∧ ∀ c ∈ after, isBlank c
  named : name ≠ ""
  unbracketed : ']' ∉ name.toList
  /-- blanks in front of the expression are not part of it -/
  expressed : ∃ c ∈ expression.head?, isBlank c = false

/-- A right side is an equals sign between blanks, and an expression. -/
theorem rightSide?_eq_some_iff : rightSide? cs = some expression ↔
    (∃ before after, cs = before ++ '=' :: (after ++ expression) ∧
      (∀ c ∈ before, isBlank c) ∧ ∀ c ∈ after, isBlank c) ∧
    ∃ c ∈ expression.head?, isBlank c = false := by
  constructor
  · intro h
    unfold rightSide? at h
    split at h
    next rest htrim =>
      dsimp only at h
      split at h
      · cases h
      next hne =>
        cases h
        refine ⟨⟨cs.takeWhile isBlank, rest.takeWhile isBlank, ?_, ?_, ?_⟩, ?_⟩
        · rw [trimStart, List.takeWhile_append_dropWhile, ← htrim, trimStart,
            List.takeWhile_append_dropWhile]
        · exact fun c hc => List.mem_takeWhile_imp hc
        · exact fun c hc => List.mem_takeWhile_imp hc
        · obtain ⟨c, more, hstart⟩ := List.exists_cons_of_ne_nil hne
          exact ⟨c, by rw [hstart]; rfl, isBlank_head_trimStart rest c (by rw [hstart]; rfl)⟩
    · cases h
  · rintro ⟨⟨before, after, rfl, hbefore, hafter⟩, c, hc, hblank⟩
    have hright : trimStart (after ++ expression) = expression := by
      rw [trimStart_blanks_append hafter]
      refine trimStart_eq_self fun c' hc' => ?_
      cases hc.symm.trans hc'
      exact hblank
    have hsign :
        trimStart (before ++ '=' :: (after ++ expression)) = '=' :: (after ++ expression) := by
      rw [trimStart_blanks_append hbefore]
      exact trimStart_eq_self fun c' hc' => by cases hc'; rfl
    have hne : expression ≠ [] := by
      rintro rfl
      cases hc
    simp only [rightSide?, hsign, hright, if_neg hne]

/-- The name is what stands between the brackets. -/
theorem assignment?_bracketed (hne : name ≠ []) (h : ']' ∉ name) (rest : List Char) :
    assignment? ('[' :: (name ++ ']' :: rest)) =
      (rightSide? rest).map fun expression => (.ofList name, expression) := by
  obtain ⟨first, more, rfl⟩ := List.exists_cons_of_ne_nil hne
  rw [assignment?, splitWhile_ne_append h]

/-- **Exactly the name in the brackets is handed over**, and the expression
    without blanks in front. -/
theorem assignment?_eq_some_iff :
    assignment? cs = some (assigned, expression) ↔ Assigns assigned expression cs := by
  constructor
  · intro h
    unfold assignment? at h
    split at h
    · split at h
      next first name _ rest hcut =>
        obtain ⟨rfl, hname⟩ := eq_append_of_splitWhile_ne hcut
        obtain ⟨right, hright, hsome⟩ := Option.map_eq_some_iff.1 h
        cases hsome
        obtain ⟨⟨before, after, rfl, hblanks⟩, hexpression⟩ := rightSide?_eq_some_iff.1 hright
        refine ⟨⟨before, after, by rw [String.toList_ofList], hblanks⟩, ?_, ?_, hexpression⟩
        · simp [← String.toList_eq_nil_iff]
        · rwa [String.toList_ofList]
      · cases h
    · cases h
  · rintro ⟨⟨before, after, rfl, hblanks⟩, hnamed, hbracket, hexpression⟩
    have hright := rightSide?_eq_some_iff.2 ⟨⟨before, after, rfl, hblanks⟩, hexpression⟩
    have hname : assigned.toList ≠ [] := fun h => hnamed (String.toList_eq_nil_iff.1 h)
    rw [assignment?_bracketed hname hbracket, hright, Option.map_some, String.ofList_toList]

theorem ofText_eq_assignment_iff :
    ofText cs = .assignment assigned expression ↔ Assigns assigned expression cs := by
  rw [← assignment?_eq_some_iff]
  constructor
  · intro h
    unfold ofText at h
    split at h
    · cases h
    · cases h
    · split at h
      next hassigned =>
        cases h
        exact hassigned
      · cases h
  · intro h
    obtain ⟨before, after, rfl, -⟩ := (assignment?_eq_some_iff.1 h).written
    rw [ofText, h]
    · simp
    · simp

/-! ## Where an expression stands -/

/-- **An expression ends its statement**, behind no braces but those of the
    name that is assigned. -/
theorem exists_front (h : (ofText cs).expression? = some expression) :
    ∃ front, cs = front ++ expression ∧
      front.filter isBrace = (ofText cs).target.filter isBrace := by
  unfold ofText at h ⊢
  split at h
  · cases h
  · cases h
    exact ⟨['='], rfl, rfl⟩
  · split at h
    next assigned _ hassigned =>
      cases h
      obtain ⟨before, after, rfl, hbefore, hafter⟩ := (assignment?_eq_some_iff.1 hassigned).written
      refine ⟨'[' :: (assigned.toList ++ ']' :: (before ++ '=' :: after)), by simp, ?_⟩
      have hopening : isBrace '[' = false := rfl
      have hclosing : isBrace ']' = false := rfl
      have hsign : isBrace '=' = false := rfl
      have hfront := filter_isBrace_eq_nil fun c hc => isBrace_of_isBlank (hbefore c hc)
      have hback := filter_isBrace_eq_nil fun c hc => isBrace_of_isBlank (hafter c hc)
      simp [target, hopening, hclosing, hsign, hfront, hback]
    · cases h

end ProductFormula.Statement
