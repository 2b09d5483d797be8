/-
  Braces of a text.

  A text closes its braces if the last one of them is a closing one
  (`ClosesBraces`).  Behind such a text the reading of references starts afresh,
  so the references of a text cut there are those of the two parts
  (`Segment.ofText_append`, `requiredNames_append`).

  * `Encloses`: what stands between an opening brace and the next closing one,
    wherever the two stand; every reference of a text is of this kind
    (`Segment.encloses_of_mem`);
  * `Referable`: a name that can be written between braces.
-/
import ProductFormula.Proofs.Text.Cut
import ProductFormula.Template

namespace ProductFormula

variable {cs text front rest inner : List Char} {c : Char}

/-! ## Texts that close their braces -/

def isBrace (c : Char) : Bool := c == '\x7b' || c == '\x7d'

/-- The last brace, if there is one, is a closing brace. -/
def ClosesBraces (cs : List Char) : Prop := (cs.filter isBrace).getLast? ≠ some '\x7b'

instance (cs : List Char) : Decidable (ClosesBraces cs) :=
  inferInstanceAs (Decidable ((cs.filter isBrace).getLast? ≠ some '\x7b'))

theorem isBrace_eq_false_iff : isBrace c = false ↔ c ≠ '\x7b' ∧ c ≠ '\x7d' := by
  simp [isBrace]

theorem isBrace_of_isBlank (h : Text.isBlank c) : isBrace c = false := by
  rw [isBrace_eq_false_iff]
  constructor
  · rintro rfl
    cases h
  · rintro rfl
    cases h

theorem filter_isBrace_eq_nil (h : ∀ c ∈ cs, isBrace c = false) : cs.filter isBrace = [] := by
  rw [List.filter_eq_nil_iff]
  intro c hc
  rw [h c hc]
  exact Bool.false_ne_true

theorem closesBraces_of_filter (h : cs.filter isBrace = []) : ClosesBraces cs := by
  simp [ClosesBraces, h]

theorem ClosesBraces.of_append (front : List Char) (h : ClosesBraces (front ++ rest)) :
    ClosesBraces rest := by
  intro hrest
  rw [ClosesBraces, List.filter_append, List.getLast?_append, hrest] at h
  exact h rfl

theorem ClosesBraces.tail (h : ClosesBraces (c :: cs)) : ClosesBraces cs :=
  .of_append [c] h

theorem closesBraces_concat (cs : List Char) : ClosesBraces (cs ++ ['\x7d']) := by
  simp [ClosesBraces, isBrace]

/-- An opening brace in front is closed. -/
theorem ClosesBraces.exists_closing (h : ClosesBraces ('\x7b' :: cs)) :
    ∃ inner rest, cs = inner ++ '\x7d' :: rest ∧ '\x7d' ∉ inner := by
  by_cases hmem : '\x7d' ∈ cs
  · exact List.eq_append_cons_of_mem hmem
  · -- every brace of the text opens, the first one included
    have hopen : ∀ b ∈ ('\x7b' :: cs).filter isBrace, b = '\x7b' := by
      intro b hb
      obtain ⟨hb, hbrace⟩ := List.mem_filter.1 hb
      rcases List.mem_cons.1 hb with rfl | hb
      · rfl
      · have hne : b ≠ '\x7d' := fun heq => hmem (heq ▸ hb)
        simpa [isBrace, hne] using hbrace
    have hne : ('\x7b' :: cs).filter isBrace ≠ [] := by simp [isBrace]
    have hlast := List.getLast?_eq_some_getLast hne
    rw [hopen _ (List.getLast_mem hne)] at hlast
    exact absurd hlast h

/-! ## References of a text -/

namespace Segment

theorem ofText_nil : ofText [] = [] := by
  rw [ofText]

theorem ofText_plain (h : c ≠ '\x7b') (cs : List Char) :
    ofText (c :: cs) = .plain c :: ofText cs := by
  rw [ofText, if_neg h]

theorem ofText_braced (hne : inner ≠ []) (h : '\x7d' ∉ inner) (rest : List Char) :
    ofText ('\x7b' :: (inner ++ '\x7d' :: rest)) = .braced inner :: ofText rest := by
  rw [ofText, if_pos rfl]
  split
  next hcut =>
    rw [Text.splitWhile_ne_append h] at hcut
    cases hcut
    rfl
  next hcut =>
    obtain ⟨first, more, rfl⟩ := List.exists_cons_of_ne_nil hne
    exact absurd (Text.splitWhile_ne_append h rest) (hcut first more _ rest)

/-- A brace in front of this starts no reference. -/
def Lone (cs : List Char) : Prop := cs.head? = some '\x7d' ∨ '\x7d' ∉ cs

theorem ofText_lone (h : Lone cs) : ofText ('\x7b' :: cs) = .plain '\x7b' :: ofText cs := by
  rw [ofText, if_pos rfl]
  split
  next first more _ rest hcut =>
    -- a reference would start here
    obtain ⟨rfl, hinner⟩ := Text.eq_append_of_splitWhile_ne hcut
    rcases h with hhead | hclosing
    · cases hhead
      exact absurd List.mem_cons_self hinner
    · simp at hclosing
  · rfl

/-- Every text is built up from its end: a character that is no opening brace,
    an opening brace alone, or a reference is put in front. -/
@[elab_as_elim]
theorem induction {motive : List Char → Prop} (nil : motive [])
    (plain : ∀ c cs, c ≠ '\x7b' → motive cs → motive (c :: cs))
    (lone : ∀ cs, Lone cs → motive cs → motive ('\x7b' :: cs))
    (braced : ∀ inner rest, inner ≠ [] → '\x7d' ∉ inner → motive rest →
      motive ('\x7b' :: (inner ++ '\x7d' :: rest))) (text : List Char) : motive text := by
  match text with
  | [] => exact nil
  | c :: cs =>
    by_cases hc : c = '\x7b'
    · subst hc
      by_cases hlone : Lone cs
      · exact lone cs hlone (induction nil plain lone braced cs)
      · obtain ⟨hhead, hclosing⟩ := not_or.1 hlone
        obtain ⟨inner, rest, heq, hinner⟩ :=
          List.eq_append_cons_of_mem (Classical.not_not.1 hclosing)
        have hne : inner ≠ [] := by
          rintro rfl
          exact hhead (by rw [heq]; rfl)
        have hlt : rest.length < ('\x7b' :: cs).length := by
          simp only [heq, List.length_cons, List.length_append]
          omega
        exact heq ▸ braced inner rest hne hinner (induction nil plain lone braced rest)
    · exact plain c cs hc (induction nil plain lone braced cs)
termination_by text.length

/-- **References are read afresh behind a text that closes its braces.** -/
theorem ofText_append (h : ClosesBraces front) (rest : List Char) :
    ofText (front ++ rest) = ofText front ++ ofText rest := by
  induction front using Segment.induction with
  | nil => rw [ofText_nil, List.nil_append, List.nil_append]
  | plain c cs hc ih =>
    rw [List.cons_append, ofText_plain hc, ofText_plain hc, ih h.tail, List.cons_append]
  | lone cs hlone ih =>
    -- the brace is closed, so a closing one follows at once, whatever the rest
    obtain ⟨tail, rfl⟩ : ∃ tail, cs = '\x7d' :: tail := by
      obtain ⟨inner, tail, rfl, -⟩ := h.exists_closing
      rcases hlone with hhead | hopen
      · exact List.head?_eq_some_iff.1 hhead
      · simp at hopen
    have hfront : Lone ('\x7d' :: tail) := .inl rfl
    have hwhole : Lone ('\x7d' :: tail ++ rest) := .inl rfl
    rw [List.cons_append, ofText_lone hfront, ofText_lone hwhole, ih h.tail, List.cons_append]
  | braced inner tail hne hinner ih =>
    have htail : ClosesBraces tail :=
      .of_append ('\x7b' :: (inner ++ ['\x7d'])) (by simpa using h)
    rw [ofText_braced hne hinner, List.cons_append, List.append_assoc, List.cons_append,
      ofText_braced hne hinner, ih htail, List.cons_append]

end Segment

theorem requiredNames_append (h : ClosesBraces front) (rest : List Char) :
    requiredNames (front ++ rest) = requiredNames front ++ requiredNames rest := by
  rw [requiredNames, Segment.ofText_append h, List.filterMap_append, ← requiredNames,
    ← requiredNames]

theorem requiredNames_nil : requiredNames [] = [] := by
  rw [requiredNames, Segment.ofText_nil, List.filterMap_nil]

theorem requiredNames_plain (h : c ≠ '\x7b') (cs : List Char) :
    requiredNames (c :: cs) = requiredNames cs := by
  rw [requiredNames, Segment.ofText_plain h, List.filterMap_cons, Segment.requiredName?,
    ← requiredNames]

theorem requiredNames_lone (h : Segment.Lone cs) :
    requiredNames ('\x7b' :: cs) = requiredNames cs := by
  rw [requiredNames, Segment.ofText_lone h, List.filterMap_cons, Segment.requiredName?,
    ← requiredNames]

/-- A text without a closing brace requires nothing. -/
theorem requiredNames_unclosed (h : '\x7d' ∉ cs) : requiredNames cs = [] := by
  induction cs with
  | nil => exact requiredNames_nil
  | cons c cs ih =>
    obtain ⟨-, hcs⟩ := not_or.1 (mt List.mem_cons.2 h)
    by_cases hc : c = '\x7b'
    · subst hc
      rw [requiredNames_lone (.inr hcs), ih hcs]
    · rw [requiredNames_plain hc, ih hcs]

/-- Characters that are no braces in front of a text require nothing. -/
theorem requiredNames_braceless_append (h : front.filter isBrace = []) (rest : List Char) :
    requiredNames (front ++ rest) = requiredNames rest := by
  have hclosing : '\x7d' ∉ front := fun hmem => List.filter_eq_nil_iff.1 h _ hmem rfl
  rw [requiredNames_append (closesBraces_of_filter h), requiredNames_unclosed hclosing,
    List.nil_append]

/-- A reference without a caret is required. -/
theorem requiredNames_braced (hne : inner ≠ []) (h : '\x7d' ∉ inner)
    (hcaret : inner.head? ≠ some '^') (rest : List Char) :
    requiredNames ('\x7b' :: (inner ++ '\x7d' :: rest)) =
      .ofList inner :: requiredNames rest := by
  rw [requiredNames, Segment.ofText_braced hne h, List.filterMap_cons, Segment.requiredName?,
    if_neg hcaret, ← requiredNames]

/-- A reference with a caret is not. -/
theorem requiredNames_caret (h : '\x7d' ∉ inner) (rest : List Char) :
    requiredNames ('\x7b' :: ('^' :: inner ++ '\x7d' :: rest)) = requiredNames rest := by
  have hclosed : '\x7d' ∉ '^' :: inner := by simpa using h
  rw [requiredNames, Segment.ofText_braced (by simp) hclosed, List.filterMap_cons,
    Segment.requiredName?, List.head?_cons, if_pos rfl, ← requiredNames]

/-! ## Braces anywhere in a text -/

/-- Somewhere in the text this stands between an opening brace and the next
    closing one. -/
def Encloses (text inner : List Char) : Prop :=
  '\x7d' ∉ inner ∧ ('\x7b' :: (inner ++ ['\x7d'])) <:+: text

theorem Encloses.mono (h : Encloses text inner) {whole : List Char} (hpart : text <:+: whole) :
    Encloses whole inner :=
  ⟨h.1, h.2.trans hpart⟩

theorem encloses_front (h : '\x7d' ∉ inner) (rest : List Char) :
    Encloses ('\x7b' :: (inner ++ '\x7d' :: rest)) inner :=
  ⟨h, [], rest, by simp⟩

theorem Segment.encloses_of_mem (h : .braced inner ∈ ofText text) : Encloses text inner := by
  induction text using Segment.induction with
  | nil => rw [ofText_nil] at h; cases h
  | plain c cs hc ih =>
    rw [ofText_plain hc] at h
    exact (ih (List.mem_of_ne_of_mem Segment.noConfusion h)).mono (List.suffix_cons c cs).isInfix
  | lone cs hlone ih =>
    rw [ofText_lone hlone] at h
    exact (ih (List.mem_of_ne_of_mem Segment.noConfusion h)).mono (List.suffix_cons _ cs).isInfix
  | braced inner' rest hne hinner ih =>
    rw [ofText_braced hne hinner] at h
    rcases List.mem_cons.1 h with heq | h
    · cases heq
      exact encloses_front hinner rest
    · exact (ih h).mono ⟨'\x7b' :: (inner' ++ ['\x7d']), [], by simp⟩

/-! ## Names between braces -/

/-- The name can be written between braces, behind a caret if it is optional:
    it does not end the reference, and has no caret of its own that would make
    it optional. -/
structure Referable (name : String) (optional : Bool) : Prop where
  nonempty : name ≠ ""
  noBrace : '\x7d' ∉ name.toList
  noCaret : optional = false → name.toList.head? ≠ some '^'

end ProductFormula
