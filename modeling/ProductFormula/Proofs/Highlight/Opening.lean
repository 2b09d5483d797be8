/-
  What statements open with.

  A comment and a text return are known by two characters in front, `//` and
  `=#`.  The two readers look for them in different texts: colouring in the
  source as it is written, a calculation in the normalized one.  Blanks in front
  make no difference to either (`colours_firstPiece_iff`, `opens_normalized_iff`).
  But normalizing drops line breaks between the two characters, and colouring
  does not.

  * `opens_iff_coloured_or_divided` compares the two readers on one statement;
  * `coloured_iff_taken`: what is coloured as an opening is taken for one, and
    the converse holds exactly where no line break divides the two characters.
-/
import ProductFormula.Proofs.Calculation.Sequence
import ProductFormula.Proofs.Highlight.Statements

namespace ProductFormula.Highlight

open Text

/-! ## Openings -/

/-- Two characters that tell what a statement is. -/
inductive Opening where
  /-- `//` -/
  | comment
  /-- `=#` -/
  | textReturn
deriving DecidableEq

namespace Opening

def first : Opening → Char
  | comment => '/'
  | textReturn => '='

def second : Opening → Char
  | comment => '/'
  | textReturn => '#'

/-- The piece has the colour of the opening. -/
def Colours : Opening → Kind × List Char → Prop
  | comment, piece => piece.1 = .comment
  | textReturn, piece => piece = (.operator, ['=', '#'])

/-- A calculation takes the normalized statement for one with the opening. -/
def Opens : Opening → List Char → Prop
  | comment, s => isComment s
  | textReturn, s => ['=', '#'] <+: s

/-- The statement opens with the two characters and line breaks between them. -/
def Divided (o : Opening) (s : List Char) : Prop :=
  ∃ breaks rest, trimStart s = o.first :: (breaks ++ o.second :: rest) ∧
    breaks ≠ [] ∧ ∀ c ∈ breaks, isLineBreak c

end Opening

variable {o : Opening} {first : Char} {cs s : List Char}

/-! ## The first piece -/

theorem kind_cutInside (first : Char) (cs : List Char) :
    (cutInside first cs).kind ≠ .whitespace ∧ (cutInside first cs).kind ≠ .comment := by
  unfold cutInside
  split_ifs <;> simp [Cut.closed, Cut.while, Cut.single]

/-- Signs that run together are no `=#`. -/
theorem tail_cutInside_equals (cs : List Char) : (cutInside '=' cs).tail ≠ ['#'] := by
  have hcut : cutInside '=' cs = .while .operator .inside isRunning cs := by
    simp [cutInside, startsNumber, isRunning]
  intro htail
  have hrun : cs.takeWhile isRunning = ['#'] := by
    rw [hcut] at htail
    exact htail
  have hmem : '#' ∈ cs.takeWhile isRunning := by simp [hrun]
  exact absurd (List.mem_takeWhile_imp hmem) (by decide)

theorem not_colours_cutInside (o : Opening) (first : Char) (cs : List Char) :
    ¬ o.Colours ((cutInside first cs).kind, first :: (cutInside first cs).tail) := by
  cases o with
  | comment => exact (kind_cutInside first cs).2
  | textReturn =>
    intro h
    obtain ⟨rfl, htail⟩ := List.cons.inj (Prod.mk.inj h).2
    exact tail_cutInside_equals cs htail

/-- A piece in front has the colour of an opening iff it starts with the two
    characters. -/
theorem colours_cut_iff (h : isBlank first = false) :
    o.Colours ((cut .opening first cs).kind, first :: (cut .opening first cs).tail) ↔
      first = o.first ∧ cs.head? = some o.second := by
  unfold cut
  split_ifs with hseparator hpayload hblank hcomment hreturn
  · subst hseparator
    cases o <;> simp [Opening.Colours, Opening.first, Cut.single]
  · cases hpayload
  · rw [h] at hblank
    cases hblank
  · obtain ⟨-, rfl, hhead⟩ := hcomment
    cases o <;> simp [Opening.Colours, Opening.first, Opening.second, Cut.while, hhead]
  · obtain ⟨-, rfl, hhead⟩ := hreturn
    cases o <;> simp [Opening.Colours, Opening.first, Opening.second, hhead]
  · refine iff_of_false (not_colours_cutInside o first cs) ?_
    rintro ⟨rfl, hhead⟩
    cases o with
    | comment => exact hcomment ⟨rfl, rfl, hhead⟩
    | textReturn => exact hreturn ⟨rfl, rfl, hhead⟩

theorem kind_cut_ne_whitespace (h : isBlank first = false) (cs : List Char) :
    (cut .opening first cs).kind ≠ .whitespace := by
  unfold cut
  split_ifs with hseparator hpayload hblank hcomment hreturn
  · exact Kind.noConfusion
  · cases hpayload
  · rw [h] at hblank
    cases hblank
  · exact Kind.noConfusion
  · exact Kind.noConfusion
  · exact (kind_cutInside first cs).1

/-- The first piece that is no whitespace. -/
def firstPiece? (ps : List (Kind × List Char)) : Option (Kind × List Char) :=
  ps.find? fun piece => piece.1 != .whitespace

/-- Blanks in front are one piece, and are passed over. -/
theorem firstPiece?_pieces (s : List Char) :
    firstPiece? (pieces .opening s) = (pieces .opening (trimStart s)).head? := by
  have hhead (t : List Char) (ht : ∀ c ∈ t.head?, isBlank c = false) :
      firstPiece? (pieces .opening t) = (pieces .opening t).head? := by
    cases t with
    | nil => simp [pieces, firstPiece?]
    | cons c cs =>
      have hkind := kind_cut_ne_whitespace (ht c rfl) cs
      simp [pieces, firstPiece?, hkind]
  cases s with
  | nil => exact hhead [] (by simp)
  | cons c cs =>
    by_cases hc : isBlank c
    · have hne : c ≠ ';' := by
        rintro rfl
        cases hc
      have hcut : cut .opening c cs = .while .whitespace .opening isBlank cs := by
        simp [cut, hne, hc]
      have hrest : (Cut.while .whitespace .opening isBlank cs).rest = trimStart (c :: cs) := by
        rw [trimStart, List.dropWhile_cons_of_pos hc]
        rfl
      rw [pieces, hcut, hrest]
      exact hhead _ (isBlank_head_trimStart _)
    · have hstart : trimStart (c :: cs) = c :: cs := trimStart_eq_self (by simpa using hc)
      rw [hstart]
      exact hhead _ (by simpa using hc)

/-- **Colouring sees an opening where its two characters stand side by side.** -/
theorem colours_firstPiece_iff (o : Opening) (s : List Char) :
    (∃ piece ∈ firstPiece? (pieces .opening s), o.Colours piece) ↔
      ∃ rest, trimStart s = o.first :: o.second :: rest := by
  rw [firstPiece?_pieces]
  have hstart := isBlank_head_trimStart s
  generalize trimStart s = t at hstart
  cases t with
  | nil => simp [pieces]
  | cons c cs =>
    rw [pieces]
    simp only [List.head?_cons, Option.mem_def, Option.some.injEq, exists_eq_left',
      colours_cut_iff (hstart c rfl), List.cons.injEq, List.head?_eq_some_iff]
    constructor
    · rintro ⟨hc, rest, hcs⟩
      exact ⟨rest, hc, hcs⟩
    · rintro ⟨rest, hc, hcs⟩
      exact ⟨hc, rest, hcs⟩

/-! ## The normalized statement -/

/-- One statement of `statements (normalize text)`. -/
def normalized (s : List Char) : List Char := (trim s).filter fun c => !isLineBreak c

theorem trimmed_normalized (s : List Char) : Trimmed (normalized s) :=
  (trimmed_trim s).filter fun c hc => by rw [isLineBreak_of_isBlank hc]; rfl

namespace Opening

theorem isBlank_first (o : Opening) : isBlank o.first = false := by cases o <;> rfl

theorem isBlank_second (o : Opening) : isBlank o.second = false := by cases o <;> rfl

theorem isLineBreak_first (o : Opening) : isLineBreak o.first = false :=
  isLineBreak_of_isBlank o.isBlank_first

theorem isLineBreak_second (o : Opening) : isLineBreak o.second = false :=
  isLineBreak_of_isBlank o.isBlank_second

theorem opens_normalized (o : Opening) (s : List Char) :
    o.Opens (normalized s) ↔ [o.first, o.second] <+: normalized s := by
  cases o with
  | comment =>
    have hstart : trimStart (normalized s) = normalized s :=
      trimStart_eq_self (trimmed_normalized s).head
    rw [Opens, isComment, hstart, List.isPrefixOf_iff_prefix]
    rfl
  | textReturn => exact Iff.rfl

end Opening

/-- Line breaks are all that is dropped between two characters that meet. -/
theorem exists_of_prefix_normalized (h : [o.first, o.second] <+: normalized s) :
    ∃ breaks rest, trimStart s = o.first :: (breaks ++ o.second :: rest) ∧
      ∀ c ∈ breaks, isLineBreak c := by
  obtain ⟨more, hmore⟩ := h
  obtain ⟨before, after, htrim, hbefore, -, hafter⟩ :=
    List.filter_eq_cons_iff.1 (show normalized s = o.first :: o.second :: more from hmore.symm)
  obtain ⟨breaks, rest, rfl, hbreaks, -, -⟩ := List.filter_eq_cons_iff.1 hafter
  -- a trimmed statement does not start with a line break
  have hnil : before = [] := by
    cases before with
    | nil => rfl
    | cons c before =>
      have hblank : isBlank c = false := (trimmed_trim s).head c (by rw [htrim]; rfl)
      have hbreak : isLineBreak c := by simpa using hbefore c List.mem_cons_self
      rw [isLineBreak_of_isBlank hblank] at hbreak
      cases hbreak
  obtain ⟨back, hback⟩ := isPrefix_trimEnd (trimStart s)
  refine ⟨breaks, rest ++ back, ?_, fun c hc => by simpa using hbreaks c hc⟩
  rw [← hback, ← trim, htrim, hnil]
  simp

/-- **A calculation sees an opening where its two characters stand with nothing
    but line breaks between them.** -/
theorem opens_normalized_iff (o : Opening) (s : List Char) :
    o.Opens (normalized s) ↔ ∃ breaks rest, trimStart s = o.first :: (breaks ++ o.second :: rest) ∧
      ∀ c ∈ breaks, isLineBreak c := by
  rw [o.opens_normalized]
  refine ⟨exists_of_prefix_normalized, ?_⟩
  rintro ⟨breaks, rest, hs, hbreaks⟩
  have htrim : trim s = o.first :: (breaks ++ o.second :: trimEnd rest) := by
    rw [trim, hs, ← List.cons_append, trimEnd_append o.isBlank_second, List.cons_append]
  have hnil : breaks.filter (fun c => !isLineBreak c) = [] :=
    List.filter_eq_nil_iff.2 fun c hc => by simp [hbreaks c hc]
  rw [normalized, htrim, List.filter_cons_of_pos (by rw [o.isLineBreak_first]; rfl),
    List.filter_append, hnil, List.nil_append,
    List.filter_cons_of_pos (by rw [o.isLineBreak_second]; rfl)]
  exact ⟨_, rfl⟩

/-! ## Both readers -/

/-- A statement is coloured as one with the opening. -/
def ColouredAs (o : Opening) (s : List Char) : Prop :=
  ∃ piece ∈ firstPiece? (pieces .opening s), o.Colours piece

theorem not_coloured_of_divided (h : o.Divided s) : ¬ ColouredAs o s := by
  obtain ⟨breaks, rest, hs, hne, hbreaks⟩ := h
  rw [ColouredAs, colours_firstPiece_iff, hs]
  rintro ⟨rest', heq⟩
  obtain ⟨c, breaks, rfl⟩ := List.exists_cons_of_ne_nil hne
  obtain ⟨rfl, -⟩ := List.cons.inj (List.cons.inj heq).2
  have hbreak := hbreaks _ List.mem_cons_self
  rw [o.isLineBreak_second] at hbreak
  cases hbreak

/-- A statement has the opening if it is coloured so, or divided. -/
theorem opens_iff_coloured_or_divided (o : Opening) (s : List Char) :
    o.Opens (normalized s) ↔ ColouredAs o s ∨ o.Divided s := by
  rw [opens_normalized_iff, ColouredAs, colours_firstPiece_iff]
  constructor
  · rintro ⟨breaks, rest, hs, hbreaks⟩
    by_cases hnil : breaks = []
    · subst hnil
      exact .inl ⟨rest, hs⟩
    · exact .inr ⟨breaks, rest, hs, hnil, hbreaks⟩
  · rintro (⟨rest, hs⟩ | ⟨breaks, rest, hs, -, hbreaks⟩)
    · exact ⟨[], rest, hs, by simp⟩
    · exact ⟨breaks, rest, hs, hbreaks⟩

/-! ## Statements of a source -/

/-- The first span that is no whitespace, of the statement with that number. -/
def firstSpan? (source : String) (i : Nat) : Option Span :=
  ((highlight source).splitOnP fun span => span.kind == .separator)[i]?.bind
    (List.find? fun span => span.kind != .whitespace)

/-- The statement's first span has the colour of the opening. -/
def Coloured (o : Opening) (source : String) (i : Nat) : Prop :=
  ∃ span ∈ firstSpan? source i, o.Colours span.piece

/-- A calculation takes the statement for one with the opening. -/
def Taken (o : Opening) (source : String) (i : Nat) : Prop :=
  ∃ s ∈ (statements (normalize source.toList))[i]?, o.Opens s

/-- The statement opens with the two characters divided by line breaks. -/
def DividedAt (o : Opening) (source : String) (i : Nat) : Prop :=
  ∃ s ∈ (statements source.toList)[i]?, o.Divided s

/-- The first piece of a statement is the piece of its first span. -/
theorem map_piece_firstSpan? (source : String) (i : Nat) :
    (firstSpan? source i).map Span.piece =
      (statements source.toList)[i]?.bind (firstPiece? ∘ pieces .opening) := by
  have hspans : Option.map Span.piece ∘ List.find? (fun span : Span => span.kind != .whitespace) =
      firstPiece? ∘ List.map Span.piece := by
    funext spans
    rw [Function.comp_apply, Function.comp_apply, firstPiece?, List.find?_map]
    rfl
  rw [firstSpan?, Option.map_bind, hspans, ← Option.bind_map, ← List.getElem?_map,
    splitOnP_highlight, List.getElem?_map, Option.bind_map]

theorem coloured_iff (o : Opening) (source : String) (i : Nat) :
    Coloured o source i ↔ ∃ s ∈ (statements source.toList)[i]?, ColouredAs o s := by
  have hspan : Coloured o source i ↔
      ∃ piece ∈ (firstSpan? source i).map Span.piece, o.Colours piece := by
    simp [Coloured]
  rw [hspan, map_piece_firstSpan?]
  cases (statements source.toList)[i]? <;> simp [ColouredAs]

theorem taken_iff (o : Opening) (source : String) (i : Nat) :
    Taken o source i ↔ ∃ s ∈ (statements source.toList)[i]?, o.Opens (normalized s) := by
  rw [Taken, statements_normalize_eq_map, List.map_map, List.getElem?_map]
  cases (statements source.toList)[i]? <;> simp [normalized]

/-- **What is coloured as a comment or a text return is taken for one**, and the
    other way round where no line breaks divide the two characters. -/
theorem coloured_iff_taken (o : Opening) (source : String) (i : Nat) :
    (Coloured o source i → Taken o source i) ∧
      ((Coloured o source i ↔ Taken o source i) ↔ ¬ DividedAt o source i) := by
  rw [coloured_iff, taken_iff, DividedAt]
  cases (statements source.toList)[i]? with
  | none => simp
  | some s =>
    simp only [Option.mem_def, Option.some.injEq, exists_eq_left', opens_iff_coloured_or_divided]
    refine ⟨.inl, fun h hdivided => ?_, fun h => (or_iff_left h).symm⟩
    exact not_coloured_of_divided hdivided (h.2 (.inr hdivided))

/-- A comment sign over two lines is not coloured, and the statement dropped. -/
theorem comment_over_lines : ¬ Coloured .comment "/\n/ x" 0 ∧ Taken .comment "/\n/ x" 0 := by
  have hdivided : Opening.comment.Divided "/\n/ x".toList :=
    ⟨['\n'], " x".toList, rfl, by simp, by simp [isLineBreak]⟩
  have hstatement : (statements "/\n/ x".toList)[0]? = some "/\n/ x".toList := by decide
  rw [coloured_iff, taken_iff, hstatement]
  refine ⟨?_, "/\n/ x".toList, rfl, (opens_iff_coloured_or_divided _ _).2 (.inr hdivided)⟩
  rintro ⟨s, hs, hcoloured⟩
  cases hs
  exact not_coloured_of_divided hdivided hcoloured

end ProductFormula.Highlight
