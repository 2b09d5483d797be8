/-
  Texts with references in them.

  A text divides into literal texts and references (`Template`), and in one way
  only: a reference starts at the first brace that can start one and ends at the
  next closing brace, so literal texts hold no other opening braces than those
  directly followed by a closing one and, behind the last reference, those that
  nothing closes.  Only a text with `{^}` in it may have no such division.

  * `Template.ofText_text`: references are read at the places where they stand
    in the template, hence `Template.text_injective`; `exists_template` finds
    the template of a text;
  * `interpolate_template`: the literal texts are kept, and the references are
    replaced by values, none of which is read again.
-/
import ProductFormula.Proofs.Outcome
import ProductFormula.Proofs.Reference.Braces

namespace ProductFormula

/-! ## References in a text -/

/-- A reference as it stands in a text. -/
structure Slot where
  name : String
  optional : Bool
  referable : Referable name optional

namespace Slot

variable {ctx : Context}

/-- What stands between the braces. -/
def inner (r : Slot) : List Char := if r.optional then '^' :: r.name.toList else r.name.toList

def chars (r : Slot) : List Char := '\x7b' :: (r.inner ++ ['\x7d'])

theorem inner_ne_nil (r : Slot) : r.inner ≠ [] := by
  unfold inner
  split
  · exact List.cons_ne_nil _ _
  · simpa using r.referable.nonempty

theorem not_mem_inner (r : Slot) : '\x7d' ∉ r.inner := by
  have hname := r.referable.noBrace
  unfold inner
  split
  · simpa using hname
  · exact hname

theorem referent_inner (r : Slot) : Segment.referent r.inner = (r.name, r.optional) := by
  obtain ⟨name, optional, hname⟩ := r
  obtain ⟨c, cs, hcs⟩ : ∃ c cs, name.toList = c :: cs :=
    List.exists_cons_of_ne_nil (by simpa using hname.nonempty)
  have hofList : String.ofList (c :: cs) = name := by rw [← hcs, String.ofList_toList]
  cases optional with
  | true => simp [inner, hcs, Segment.referent, hofList]
  | false =>
    have hcaret : c ≠ '^' := by
      rintro rfl
      exact hname.noCaret rfl (by rw [hcs]; rfl)
    simp [inner, hcs, Segment.referent, hcaret, hofList]

theorem inner_injective {r r' : Slot} (h : r.inner = r'.inner) : r = r' := by
  have hreferent := r.referent_inner
  rw [h, referent_inner, Prod.mk.injEq] at hreferent
  obtain ⟨name, optional, _⟩ := r
  obtain ⟨name', optional', _⟩ := r'
  obtain ⟨rfl, rfl⟩ := hreferent
  rfl

/-- Whatever stands between braces is a reference, but for a caret alone. -/
theorem exists_inner {inner : List Char} (hne : inner ≠ []) (hbrace : '\x7d' ∉ inner)
    (hcaret : inner ≠ ['^']) : ∃ r : Slot, r.inner = inner := by
  by_cases hhead : inner.head? = some '^'
  · obtain ⟨name, rfl⟩ := List.head?_eq_some_iff.1 hhead
    have hname : Referable (.ofList name) true :=
      ⟨by simpa using hcaret, by simpa using hbrace, nofun⟩
    exact ⟨⟨_, true, hname⟩, by simp [Slot.inner]⟩
  · have hname : Referable (.ofList inner) false :=
      ⟨by simpa using hne, by simpa using hbrace, fun _ => by simpa using hhead⟩
    exact ⟨⟨_, false, hname⟩, by simp [Slot.inner]⟩

/-! ### Values -/

/-- The name that is looked up for a reference. -/
def key (ctx : Context) (r : Slot) : String :=
  if r.optional then r.name else ctx.lookupName r.name

/-- The reference is optional, or its name is bound. -/
def Resolves (ctx : Context) (r : Slot) : Prop :=
  r.optional = true ∨ ∃ v, ctx.env.get? (r.key ctx) = some v

/-- The value of a reference, zero where nothing is bound. -/
def value (ctx : Context) (r : Slot) : Value :=
  (ctx.env.get? (r.key ctx)).getD (.number (.zero false))

theorem resolve_of_resolves {r : Slot} (h : r.Resolves ctx) :
    ctx.resolve r.name r.optional = .ok (r.value ctx) := by
  unfold Context.resolve value key
  rcases h with hoptional | ⟨v, hv⟩
  · rw [if_pos hoptional, if_pos hoptional]
  · unfold key at hv
    split
    next => rfl
    next hrequired =>
      rw [if_neg hrequired] at hv
      simp [hv]

theorem resolve_of_not_resolves {r : Slot} (h : ¬ r.Resolves ctx) :
    ctx.resolve r.name r.optional = .error (.missingVariable r.name) := by
  obtain ⟨hrequired, hbound⟩ := not_or.1 h
  have hnone : ctx.env.get? (ctx.lookupName r.name) = none := by
    rw [key, if_neg hrequired] at hbound
    exact Option.eq_none_iff_forall_ne_some.2 (not_exists.1 hbound)
  simp [Context.resolve, hrequired, hnone]

theorem fill_braced (r : Slot) : (Segment.braced r.inner).fill ctx =
    (ctx.resolve r.name r.optional).map (·.display.toList) := by
  rw [Segment.fill, referent_inner]
  dsimp only
  cases ctx.resolve r.name r.optional <;> rfl

end Slot

/-! ## Templates -/

/-- Literal texts with a reference between each two of them. -/
structure Template where
  /-- the references, each with the literal text in front of it -/
  parts : List (List Char × Slot)
  /-- the literal text behind them -/
  last : List Char
  /-- a brace in front of a reference is closed at once -/
  closed : ∀ p ∈ parts, ∀ rest, '\x7b' :: rest <:+ p.1 → rest.head? = some '\x7d'
  open_or_closed : ∀ rest, '\x7b' :: rest <:+ last → rest.head? = some '\x7d' ∨ '\x7d' ∉ rest

namespace Template

def slots (t : Template) : List Slot := t.parts.map (·.2)

/-- The text that is divided so. -/
def text (t : Template) : List Char :=
  t.parts.flatMap (fun p => p.1 ++ p.2.chars) ++ t.last

/-- The text with values in the place of the references. -/
def filled (ctx : Context) (t : Template) : List Char :=
  t.parts.flatMap (fun p => p.1 ++ (p.2.value ctx).display.toList) ++ t.last

/-- The segments of a literal text and the reference behind it. -/
def segmentsOf (p : List Char × Slot) : List Segment :=
  p.1.map .plain ++ [.braced p.2.inner]

def segments (t : Template) : List Segment :=
  t.parts.flatMap segmentsOf ++ t.last.map .plain

/-! ### Reading -/

/-- Braces that start no reference are read as they are. -/
theorem ofText_literal {literal more : List Char}
    (h : ∀ rest, '\x7b' :: rest <:+ literal → Segment.Lone (rest ++ more)) :
    Segment.ofText (literal ++ more) = literal.map .plain ++ Segment.ofText more := by
  induction literal with
  | nil => rfl
  | cons c literal ih =>
    have htail := ih fun rest hrest => h rest (hrest.trans (List.suffix_cons c literal))
    by_cases hc : c = '\x7b'
    · subst hc
      rw [List.cons_append, Segment.ofText_lone (h literal List.suffix_rfl), htail, List.map_cons,
        List.cons_append]
    · rw [List.cons_append, Segment.ofText_plain hc, htail, List.map_cons, List.cons_append]

theorem ofText_part {p : List Char × Slot}
    (h : ∀ rest, '\x7b' :: rest <:+ p.1 → rest.head? = some '\x7d') (more : List Char) :
    Segment.ofText (p.1 ++ p.2.chars ++ more) = segmentsOf p ++ Segment.ofText more := by
  have hlone : ∀ rest, '\x7b' :: rest <:+ p.1 → Segment.Lone (rest ++ (p.2.chars ++ more)) := by
    intro rest hrest
    left
    rw [List.head?_append, h rest hrest, Option.some_or]
  have hslot : p.2.chars ++ more = '\x7b' :: (p.2.inner ++ '\x7d' :: more) := by
    simp [Slot.chars]
  rw [List.append_assoc, ofText_literal hlone, hslot,
    Segment.ofText_braced p.2.inner_ne_nil p.2.not_mem_inner, segmentsOf, List.append_assoc,
    List.singleton_append]

/-- **References are read where they stand in the template.** -/
theorem ofText_text (t : Template) : Segment.ofText t.text = t.segments := by
  obtain ⟨parts, last, hclosed, hlast⟩ := t
  unfold text segments
  induction parts with
  | nil =>
    have hlone : ∀ rest, '\x7b' :: rest <:+ last → Segment.Lone (rest ++ []) := by
      intro rest hrest
      rw [List.append_nil]
      exact hlast rest hrest
    simpa [Segment.ofText_nil] using ofText_literal hlone
  | cons p parts ih =>
    obtain ⟨hp, hparts⟩ := List.forall_mem_cons.1 hclosed
    simp only [List.flatMap_cons, List.append_assoc] at ih ⊢
    rw [← List.append_assoc, ofText_part hp, ih hparts]

/-- A literal text ends where a reference stands among its segments. -/
theorem map_plain_append_inj {literal literal' inner inner' : List Char}
    {rest rest' : List Segment}
    (h : literal.map Segment.plain ++ .braced inner :: rest =
      literal'.map Segment.plain ++ .braced inner' :: rest') :
    literal = literal' ∧ inner = inner' ∧ rest = rest' := by
  induction literal generalizing literal' with
  | nil =>
    cases literal' with
    | nil => simpa using h
    | cons => simp at h
  | cons c literal ih =>
    cases literal' with
    | nil => simp at h
    | cons c' literal' =>
      simp only [List.map_cons, List.cons_append, List.cons.injEq, Segment.plain.injEq] at h
      obtain ⟨rfl, hinner, hrest⟩ := ih h.2
      exact ⟨by rw [h.1], hinner, hrest⟩

theorem segments_inj {parts parts' : List (List Char × Slot)} {last last' : List Char}
    (h : parts.flatMap segmentsOf ++ last.map .plain =
      parts'.flatMap segmentsOf ++ last'.map .plain) : parts = parts' ∧ last = last' := by
  have hplain (last : List Char) (p : List Char × Slot) (rest : List Segment) :
      last.map .plain ≠ segmentsOf p ++ rest := by
    intro heq
    have hmem : Segment.braced p.2.inner ∈ last.map .plain := by simp [heq, segmentsOf]
    simp at hmem
  induction parts generalizing parts' with
  | nil =>
    cases parts' with
    | nil =>
      have hlast : last.map Segment.plain = last'.map .plain := h
      exact ⟨rfl, (List.map_inj_right fun _ _ => Segment.plain.inj).1 hlast⟩
    | cons p parts' => exact absurd (by simpa using h) (hplain last p _)
  | cons p parts ih =>
    cases parts' with
    | nil => exact absurd (by simpa using h.symm) (hplain last' p _)
    | cons p' parts' =>
      simp only [List.flatMap_cons, segmentsOf, List.append_assoc, List.singleton_append] at h
      obtain ⟨hliteral, hinner, hrest⟩ := map_plain_append_inj h
      obtain ⟨rfl, rfl⟩ := ih hrest
      have hp : p = p' := Prod.ext hliteral (Slot.inner_injective hinner)
      exact ⟨by rw [hp], rfl⟩

/-- **A text divides in one way only.** -/
theorem text_injective {t t' : Template} (h : t.text = t'.text) : t = t' := by
  have hsegments : t.segments = t'.segments := by rw [← ofText_text, h, ofText_text]
  obtain ⟨parts, last, _, _⟩ := t
  obtain ⟨parts', last', _, _⟩ := t'
  obtain ⟨rfl, rfl⟩ := segments_inj hsegments
  rfl

/-! ### Dividing -/

/-- A character is put in front of the first literal text. -/
theorem exists_cons {c : Char} (t : Template) (h : c = '\x7b' → Segment.Lone t.text) :
    ∃ t' : Template, t'.text = c :: t.text := by
  obtain ⟨parts, last, hclosed, hlast⟩ := t
  cases parts with
  | nil =>
    have hends : ∀ rest, '\x7b' :: rest <:+ c :: last → Segment.Lone rest := by
      intro rest hrest
      rcases List.suffix_cons_iff.1 hrest with heq | hrest
      · cases heq
        exact h rfl
      · exact hlast rest hrest
    exact ⟨⟨[], c :: last, hclosed, hends⟩, rfl⟩
  | cons p parts =>
    obtain ⟨literal, r⟩ := p
    obtain ⟨hp, hparts⟩ := List.forall_mem_cons.1 hclosed
    have hfirst : ∀ rest, '\x7b' :: rest <:+ c :: literal → rest.head? = some '\x7d' := by
      intro rest hrest
      rcases List.suffix_cons_iff.1 hrest with heq | hrest
      · cases heq
        -- the reference behind the literal text has a closing brace
        rcases h rfl with hhead | hclosing
        · cases literal with
          | nil => simp [text, Slot.chars] at hhead
          | cons => simpa [text] using hhead
        · simp [text, Slot.chars] at hclosing
      · exact hp rest hrest
    exact ⟨⟨(c :: literal, r) :: parts, last, List.forall_mem_cons.2 ⟨hfirst, hparts⟩, hlast⟩, rfl⟩

/-- A reference is put in front. -/
theorem exists_slot (r : Slot) (t : Template) : ∃ t' : Template, t'.text = r.chars ++ t.text := by
  have hfirst : ∀ rest, '\x7b' :: rest <:+ [] → rest.head? = some '\x7d' := by simp
  refine ⟨⟨([], r) :: t.parts, t.last, List.forall_mem_cons.2 ⟨hfirst, t.closed⟩,
    t.open_or_closed⟩, ?_⟩
  simp [text]

end Template

/-- **A text without `{^}` divides into literal texts and references.** -/
theorem exists_template {text : List Char} (h : ¬ ['\x7b', '^', '\x7d'] <:+: text) :
    ∃ t : Template, t.text = text := by
  induction text using Segment.induction with
  | nil => exact ⟨⟨[], [], by simp, by simp⟩, rfl⟩
  | plain c cs hc ih =>
    obtain ⟨t, rfl⟩ := ih fun hcaret => h (hcaret.trans (List.suffix_cons c cs).isInfix)
    exact t.exists_cons fun heq => absurd heq hc
  | lone cs hlone ih =>
    obtain ⟨t, rfl⟩ := ih fun hcaret => h (hcaret.trans (List.suffix_cons _ cs).isInfix)
    exact t.exists_cons fun _ => hlone
  | braced inner rest hne hbrace ih =>
    have hcaret : inner ≠ ['^'] := by
      rintro rfl
      exact h ⟨[], rest, rfl⟩
    obtain ⟨r, rfl⟩ := Slot.exists_inner hne hbrace hcaret
    have hrest : rest <:+ '\x7b' :: (r.inner ++ '\x7d' :: rest) :=
      ⟨'\x7b' :: (r.inner ++ ['\x7d']), by simp⟩
    obtain ⟨t, rfl⟩ := ih fun hcaret => h (hcaret.trans hrest.isInfix)
    obtain ⟨t', ht'⟩ := t.exists_slot r
    exact ⟨t', by simp [ht', Slot.chars]⟩

/-! ## Filling -/

section

variable {ctx : Context}

namespace Segment

/-- Segments are filled iff each of them is. -/
theorem fillAll_isOk_iff {ss : List Segment} :
    (∃ filled, fillAll ctx ss = .ok filled) ↔ ∀ s ∈ ss, ∃ filled, s.fill ctx = .ok filled := by
  induction ss with
  | nil => simp [fillAll]
  | cons s ss ih =>
    rw [List.forall_mem_cons, ← ih]
    constructor
    · rintro ⟨filled, h⟩
      obtain ⟨front, hfront, h⟩ := bind_eq_ok.1 h
      obtain ⟨rest, hrest, -⟩ := bind_eq_ok.1 h
      exact ⟨⟨front, hfront⟩, rest, hrest⟩
    · rintro ⟨⟨front, hfront⟩, rest, hrest⟩
      exact ⟨front ++ rest, bind_eq_ok.2 ⟨front, hfront, bind_eq_ok.2 ⟨rest, hrest, rfl⟩⟩⟩

theorem failsWith_fillAll {p : Error → Prop} {ss : List Segment}
    (h : ∀ s ∈ ss, FailsWith p (s.fill ctx)) : FailsWith p (fillAll ctx ss) := by
  induction ss with
  | nil => exact failsWith_ok _
  | cons s ss ih =>
    obtain ⟨hs, hss⟩ := List.forall_mem_cons.1 h
    exact hs.bind fun _ => (ih hss).bind fun _ => failsWith_ok _

theorem fillAll_append {front : List Segment} {filled : List Char}
    (h : fillAll ctx front = .ok filled) (rest : List Segment) :
    fillAll ctx (front ++ rest) = (fillAll ctx rest).map (filled ++ ·) := by
  induction front generalizing filled with
  | nil =>
    cases h
    rw [List.nil_append]
    cases fillAll ctx rest <;> rfl
  | cons s front ih =>
    obtain ⟨head, hhead, h⟩ := bind_eq_ok.1 h
    obtain ⟨tail, htail, h⟩ := bind_eq_ok.1 h
    cases h
    rw [List.cons_append, fillAll, hhead, ih htail]
    cases fillAll ctx rest with
    | ok => simp [bind, Except.bind, Except.map, pure, Except.pure]
    | error => rfl

theorem fillAll_plain (literal : List Char) :
    fillAll ctx (literal.map .plain) = .ok literal := by
  induction literal with
  | nil => rfl
  | cons c literal ih =>
    rw [List.map_cons, fillAll, ih]
    rfl

end Segment

namespace Template

theorem fillAll_segmentsOf {p : List Char × Slot} (h : p.2.Resolves ctx) :
    Segment.fillAll ctx (segmentsOf p) = .ok (p.1 ++ (p.2.value ctx).display.toList) := by
  rw [segmentsOf, Segment.fillAll_append (Segment.fillAll_plain p.1), Segment.fillAll,
    Slot.fill_braced, Slot.resolve_of_resolves h]
  simp [bind, Except.bind, Except.map, pure, Except.pure, Segment.fillAll]

theorem fillAll_parts {parts : List (List Char × Slot)} (h : ∀ p ∈ parts, p.2.Resolves ctx) :
    Segment.fillAll ctx (parts.flatMap segmentsOf) =
      .ok (parts.flatMap fun p => p.1 ++ (p.2.value ctx).display.toList) := by
  induction parts with
  | nil => rfl
  | cons p parts ih =>
    obtain ⟨hp, hparts⟩ := List.forall_mem_cons.1 h
    rw [List.flatMap_cons, Segment.fillAll_append (fillAll_segmentsOf hp), ih hparts,
      List.flatMap_cons]
    rfl

end Template

end

/-- **A text is filled in one pass**: it divides in one way, its literal texts
    are kept, and each reference is replaced by the value it has, or the first
    one without a value is missing. -/
theorem interpolate_template {text : List Char} (h : ¬ ['\x7b', '^', '\x7d'] <:+: text) :
    ∃ t : Template, t.text = text ∧ (∀ t' : Template, t'.text = text → t' = t) ∧ ∀ ctx,
      ((∀ r ∈ t.slots, r.Resolves ctx) → interpolate ctx text = .ok (.ofList (t.filled ctx))) ∧
      ∀ front r rest, t.slots = front ++ r :: rest → (∀ r' ∈ front, r'.Resolves ctx) →
        ¬ r.Resolves ctx → interpolate ctx text = .error (.missingVariable r.name) := by
  obtain ⟨t, rfl⟩ := exists_template h
  refine ⟨t, rfl, fun t' heq => Template.text_injective heq, fun ctx => ⟨fun hall => ?_, ?_⟩⟩
  · have hparts : ∀ p ∈ t.parts, p.2.Resolves ctx := List.forall_mem_map.1 hall
    rw [interpolate, Template.ofText_text, Template.segments,
      Segment.fillAll_append (Template.fillAll_parts hparts), Segment.fillAll_plain]
    rfl
  · intro front r rest hslots hfront hr
    obtain ⟨before, behind, hparts, rfl, hbehind⟩ := List.map_eq_append_iff.1 hslots
    obtain ⟨p, after, rfl, rfl, rfl⟩ := List.map_eq_cons_iff.1 hbehind
    have hbefore : ∀ p ∈ before, p.2.Resolves ctx := List.forall_mem_map.1 hfront
    rw [interpolate, Template.ofText_text, Template.segments, hparts, List.flatMap_append,
      List.append_assoc, Segment.fillAll_append (Template.fillAll_parts hbefore),
      List.flatMap_cons, Template.segmentsOf, List.append_assoc, List.append_assoc,
      Segment.fillAll_append (Segment.fillAll_plain p.1), List.singleton_append, Segment.fillAll,
      Slot.fill_braced, Slot.resolve_of_not_resolves hr]
    rfl

/-- The value inserted for `X` looks like a reference and stays as it is. -/
theorem interpolate_template_braces :
    ¬ ['\x7b', '^', '\x7d'] <:+: "a\x7b\x7d\x7bX\x7d\x7b^Y\x7dc\x7b".toList ∧
      interpolate ⟨.ofList [("X", .text "\x7bY\x7d")], true⟩
        "a\x7b\x7d\x7bX\x7d\x7b^Y\x7dc\x7b".toList = .ok "a\x7b\x7d\x7bY\x7d0c\x7b" ∧
      interpolate ⟨.empty, true⟩ "a\x7b\x7d\x7bX\x7d\x7b^Y\x7dc\x7b".toList =
        .error (.missingVariable "X") := by
  have hcaret : ¬ ['\x7b', '^', '\x7d'] <:+: "a\x7b\x7d\x7bX\x7d\x7b^Y\x7dc\x7b".toList := by
    decide +kernel
  obtain ⟨t, -, hunique, hfill⟩ := interpolate_template hcaret
  let x : Slot := ⟨"X", false, by decide, by decide, by decide⟩
  let y : Slot := ⟨"Y", true, by decide, by decide, by decide⟩
  have hclosed : ∀ p ∈ [(['a', '\x7b', '\x7d'], x), ([], y)], ∀ rest,
      '\x7b' :: rest <:+ p.1 → rest.head? = some '\x7d' := by
    simp [List.suffix_cons_iff]
  have hlast : ∀ rest, '\x7b' :: rest <:+ ['c', '\x7b'] →
      rest.head? = some '\x7d' ∨ '\x7d' ∉ rest := by
    simp [List.suffix_cons_iff]
  obtain rfl := hunique ⟨[(['a', '\x7b', '\x7d'], x), ([], y)], ['c', '\x7b'], hclosed, hlast⟩
    (by simp [Template.text, Slot.chars, Slot.inner, x, y])
  refine ⟨hcaret, ((hfill _).1 ?_).trans ?_, (hfill _).2 [] x [y] rfl nofun ?_⟩
  · have hx : x.Resolves ⟨.ofList [("X", .text "\x7bY\x7d")], true⟩ :=
      .inr ⟨.text "\x7bY\x7d", by decide +kernel⟩
    have hy : y.Resolves ⟨.ofList [("X", .text "\x7bY\x7d")], true⟩ := .inl rfl
    simpa [Template.slots] using And.intro hx hy
  · have hx : (x.value ⟨.ofList [("X", .text "\x7bY\x7d")], true⟩).display = "\x7bY\x7d" := by
      decide +kernel
    have hy : (y.value ⟨.ofList [("X", .text "\x7bY\x7d")], true⟩).display = "0" := by
      decide +kernel
    simp [Template.filled, hx, hy]
  · rintro (hoptional | ⟨v, hv⟩)
    · exact Bool.false_ne_true hoptional
    · cases hv

end ProductFormula
