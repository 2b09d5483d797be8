/-
  Where pieces end.

  The words of an expression are known to the parser, and colouring cuts the
  same text without knowing them.  What is said here is for which characters it
  comes to the end of a word: blanks, operators, names, literals without an
  exponent, and references.  The signs `< > = ! & |` run together over words, so
  that some of them are left in hand (`Reaches`) until another character follows.

  * `OnePiece`: the characters are a piece, whatever stands in front of them;
  * `Ends`: the characters are pieces, whole ones;
  * `Starts` and `Reaches`: how far into a source the pieces come.
-/
import Mathlib.Data.Bool.AllAny
import Mathlib.Data.List.TakeWhile
import ProductFormula.Proofs.Highlight.Coverage
import ProductFormula.Proofs.Printer.Lexing
import ProductFormula.Proofs.Text.Cut

namespace ProductFormula.Highlight

open Text

variable {place : Place} {kind : Kind} {first close c : Char}
  {cs ds inner rest front source : List Char}

/-! ## One piece -/

/-- These characters are one piece in front of the rest. -/
def OnePiece (kind : Kind) (cs rest : List Char) : Prop :=
  pieces .inside (cs ++ rest) = (kind, cs) :: pieces .inside rest

theorem next_cutInside (first : Char) (cs : List Char) : (cutInside first cs).next = .inside := by
  unfold cutInside
  split_ifs <;> rfl

theorem cut_inside (hseparator : first ≠ ';') (hblank : isBlank first = false) (cs : List Char) :
    cut .inside first cs = cutInside first cs := by
  simp [cut, hseparator, hblank]

theorem onePiece_of_cut (hseparator : first ≠ ';') (hblank : isBlank first = false)
    (hcut : cutInside first (cs ++ rest) = ⟨kind, .inside, cs, rest⟩) :
    OnePiece kind (first :: cs) rest := by
  rw [OnePiece, List.cons_append, pieces, cut_inside hseparator hblank, hcut]

theorem onePiece_blanks (hcs : ∀ c ∈ first :: cs, isBlank c)
    (hrest : ∀ c ∈ rest.head?, isBlank c = false) : OnePiece .whitespace (first :: cs) rest := by
  obtain ⟨hfirst, hmore⟩ := List.forall_mem_cons.1 hcs
  have hseparator : first ≠ ';' := by
    rintro rfl
    cases hfirst
  have hcut : cut .inside first (cs ++ rest) = ⟨.whitespace, .inside, cs, rest⟩ := by
    simp only [cut, hseparator, hfirst, Cut.while, splitWhile_front hmore hrest, if_true, if_false,
      reduceCtorEq]
  rw [OnePiece, List.cons_append, pieces, hcut]

/-- Signs that run together. -/
theorem onePiece_running (hcs : ∀ c ∈ first :: cs, isRunning c)
    (hrest : ∀ c ∈ rest.head?, isRunning c = false) : OnePiece .operator (first :: cs) rest := by
  obtain ⟨hfirst, hmore⟩ := List.forall_mem_cons.1 hcs
  have hsigns : ∀ c ∈ "<>=!&|".toList, c ≠ ';' ∧ isBlank c = false ∧ c ≠ '\x7b' ∧ c ≠ '[' ∧
      c ≠ 'S' ∧ c ≠ '.' ∧ c.isDigit = false :=
    List.all_iff_forall_prop.1 (by decide +kernel)
  obtain ⟨hseparator, hblank, hbrace, hbracket, hword, hpoint, hdigit⟩ :=
    hsigns first (List.contains_iff_mem.1 hfirst)
  have hcut : cutInside first (cs ++ rest) = ⟨.operator, .inside, cs, rest⟩ := by
    simp only [cutInside, startsNumber, hbrace, hbracket, hword, hdigit, hfirst, Cut.while,
      splitWhile_front hmore hrest, beq_eq_false_iff_ne.2 hpoint, Bool.false_or, Bool.false_and,
      false_and, if_true, if_false, Bool.false_eq_true]
  exact onePiece_of_cut hseparator hblank hcut

/-- A symbol or bracket by itself. -/
theorem onePiece_operator (hoperator : isOperator c) (hrunning : isRunning c = false)
    (hname : c = '[' → isNameBracket rest = false) : OnePiece .operator [c] rest := by
  have hsigns : ∀ c ∈ "+-*/%<>=!&|?:(),¹²³ªº√[]".toList, c ≠ ';' ∧ isBlank c = false ∧
      c ≠ '\x7b' ∧ c ≠ 'S' ∧ c ≠ '.' ∧ c.isDigit = false :=
    List.all_iff_forall_prop.1 (by decide +kernel)
  obtain ⟨hseparator, hblank, hbrace, hword, hpoint, hdigit⟩ :=
    hsigns c (List.contains_iff_mem.1 hoperator)
  have hbracket : ¬ (c = '[' ∧ isNameBracket rest) := by
    rintro ⟨hc, htrue⟩
    rw [hname hc] at htrue
    cases htrue
  have hcut : cutInside c ([] ++ rest) = .single .operator .inside rest := by
    rw [List.nil_append]
    simp only [cutInside, startsNumber, hbrace, hbracket, hword, hdigit, hrunning, hoperator,
      beq_eq_false_iff_ne.2 hpoint, Bool.false_or, Bool.false_and, false_and, if_true, if_false,
      Bool.false_eq_true]
  exact onePiece_of_cut hseparator hblank hcut

theorem first_of_startsNumber (h : startsNumber first cs) : first.isDigit ∨ first = '.' := by
  simp only [startsNumber, Bool.or_eq_true, Bool.and_eq_true, beq_iff_eq] at h
  exact h.imp_right And.left

theorem isNamePart_of_mantissa (h : c.isDigit ∨ c = '.') : Token.isNamePart c := by
  rcases h with hdigit | rfl
  · simp [Token.isNamePart, Char.isAlphanum, hdigit]
  · rfl

/-- Digits and points. -/
theorem onePiece_number (hstarts : startsNumber first (cs ++ rest))
    (hcs : ∀ c ∈ cs, c.isDigit ∨ c = '.') (hrest : ∀ c ∈ rest.head?, ¬ (c.isDigit ∨ c = '.')) :
    OnePiece .number (first :: cs) rest := by
  have hpart := isNamePart_of_mantissa (first_of_startsNumber hstarts)
  have hne {c : Char} (hc : Token.isNamePart c = false) : first ≠ c := by
    rintro rfl
    rw [hc] at hpart
    cases hpart
  have hbrace : first ≠ '\x7b' := hne rfl
  have hbracket : first ≠ '[' := hne rfl
  have hfront := @splitWhile_front (fun c => c.isDigit || c == '.') cs rest (by simpa using hcs)
    (by simpa using hrest)
  have hcut : cutInside first (cs ++ rest) = ⟨.number, .inside, cs, rest⟩ := by
    simp only [cutInside, hbrace, hbracket, hstarts, Cut.while, hfront, false_and, if_true,
      if_false]
  exact onePiece_of_cut (hne rfl) (Token.isBlank_of_isNamePart hpart) hcut

/-! ## Closed pieces -/

theorem closing_cons (hseparator : ';' ∉ inner) (hclose : close ∉ inner) (rest : List Char) :
    closing close (inner ++ close :: rest) = (inner ++ [close], rest) := by
  have hcut : splitWhile (fun c => c != ';' && c != close) (inner ++ close :: rest) =
      (inner, close :: rest) := by
    refine splitWhile_front (fun c hc => ?_) (by simp)
    rw [Bool.and_eq_true, bne_iff_ne, bne_iff_ne]
    exact ⟨fun h => hseparator (h ▸ hc), fun h => hclose (h ▸ hc)⟩
  rw [closing, hcut]
  exact if_pos rfl

/-- Brackets with a comma in front of the closing one hold no name. -/
theorem isNameBracket_eq_false_iff (hseparator : ';' ∉ cs) :
    isNameBracket cs = false ↔ ',' ∈ cs.takeWhile (· != ']') := by
  have hclosing : ',' ∈ (closing ']' cs).1 ↔ ',' ∈ cs.takeWhile (· != ']') := by
    by_cases hmem : ']' ∈ cs
    · obtain ⟨inner, rest, rfl, hinner⟩ := List.eq_append_cons_of_mem hmem
      have hinside : ';' ∉ inner := fun h => hseparator (List.mem_append_left _ h)
      rw [closing_cons hinside hinner, takeWhile_ne_cons hinner]
      simp
    · have hcut := congrArg Prod.fst (splitWhile_ne_of_not_mem hmem)
      rw [show cs.takeWhile (· != ']') = cs from hcut]
      have hall := @splitWhile_front (fun c => c != ';' && c != ']') cs []
        (fun c hc => by
          rw [Bool.and_eq_true, bne_iff_ne, bne_iff_ne]
          exact ⟨fun h => hseparator (h ▸ hc), fun h => hmem (h ▸ hc)⟩) (by simp)
      rw [List.append_nil] at hall
      rw [closing, hall]
  rw [← hclosing, isNameBracket, Bool.not_eq_false', List.contains_iff_mem]

theorem onePiece_reference (hseparator : ';' ∉ inner) (hclose : '\x7d' ∉ inner) (rest : List Char) :
    OnePiece .replacement ('\x7b' :: (inner ++ ['\x7d'])) rest := by
  have hcut : cutInside '\x7b' (inner ++ ['\x7d'] ++ rest) =
      ⟨.replacement, .inside, inner ++ ['\x7d'], rest⟩ := by
    rw [List.append_assoc, List.singleton_append, cutInside, if_pos rfl, Cut.closed,
      closing_cons hseparator hclose]
  exact onePiece_of_cut (by decide) (by decide +kernel) hcut

/-- A bracket that holds a name is closed by the next closing one. -/
theorem onePiece_bracket (hseparator : ';' ∉ inner) (hclose : ']' ∉ inner) (hcomma : ',' ∉ inner)
    (rest : List Char) : OnePiece .assigned ('[' :: (inner ++ [']'])) rest := by
  have hclosing := closing_cons hseparator hclose rest
  have hname : isNameBracket (inner ++ ']' :: rest) := by
    rw [isNameBracket, hclosing]
    simpa using hcomma
  have hcut : cutInside '[' (inner ++ [']'] ++ rest) =
      ⟨.assigned, .inside, inner ++ [']'], rest⟩ := by
    rw [List.append_assoc, List.singleton_append, cutInside, if_neg (by decide),
      if_pos ⟨rfl, hname⟩, Cut.closed, hclosing]
  exact onePiece_of_cut (by decide) (by decide +kernel) hcut

theorem onePiece_keyword (rest : List Char) : OnePiece .keyword ['S', 'E'] ('(' :: rest) :=
  onePiece_of_cut (by decide) (by decide +kernel) rfl

/-! ## Whole pieces -/

/-- In front of the rest these characters are pieces, none of which runs on. -/
def Ends (cs rest : List Char) : Prop :=
  ∃ ps, pieces .inside (cs ++ rest) = ps ++ pieces .inside rest

theorem ends_nil (rest : List Char) : Ends [] rest := ⟨[], rfl⟩

theorem OnePiece.ends (h : OnePiece kind cs rest) : Ends cs rest := ⟨[(kind, cs)], h⟩

theorem Ends.append (hcs : Ends cs (ds ++ rest)) (hds : Ends ds rest) : Ends (cs ++ ds) rest := by
  obtain ⟨ps, hps⟩ := hcs
  obtain ⟨qs, hqs⟩ := hds
  refine ⟨ps ++ qs, ?_⟩
  rw [List.append_assoc, hps, hqs, List.append_assoc]

theorem ends_blanks (hcs : ∀ c ∈ cs, isBlank c) (hrest : ∀ c ∈ rest.head?, isBlank c = false) :
    Ends cs rest := by
  cases cs with
  | nil => exact ends_nil rest
  | cons first cs => exact (onePiece_blanks hcs hrest).ends

theorem ends_running (hcs : ∀ c ∈ cs, isRunning c) (hrest : ∀ c ∈ rest.head?, isRunning c = false) :
    Ends cs rest := by
  cases cs with
  | nil => exact ends_nil rest
  | cons first cs => exact (onePiece_running hcs hrest).ends

/-- A symbol that is a piece by itself, whatever stands behind it. -/
def isSeparate (c : Char) : Bool := isOperator c && !isRunning c && c != '['

theorem isSeparate_iff : isSeparate c ↔ isOperator c ∧ isRunning c = false ∧ c ≠ '[' := by
  simp only [isSeparate, Bool.and_eq_true, Bool.not_eq_true', bne_iff_ne, and_assoc]

theorem ends_separate (hcs : ∀ c ∈ cs, isSeparate c) : Ends cs rest := by
  induction cs with
  | nil => exact ends_nil rest
  | cons c cs ih =>
    obtain ⟨hc, hmore⟩ := List.forall_mem_cons.1 hcs
    obtain ⟨hoperator, hrunning, hbracket⟩ := isSeparate_iff.1 hc
    have hfirst : OnePiece .operator [c] (cs ++ rest) :=
      onePiece_operator hoperator hrunning fun h => absurd h hbracket
    exact hfirst.ends.append (ih hmore)

/-- A piece that starts in a name does not leave it. -/
theorem isNamePart_tail_cutInside (h : Token.isNamePart first) (cs : List Char) :
    ∀ c ∈ (cutInside first cs).tail, Token.isNamePart c := by
  have hsigns : ∀ c ∈ "\x7b[<>=!&|".toList, Token.isNamePart c = false :=
    List.all_iff_forall_prop.1 (by decide +kernel)
  have hsign : first ∉ "\x7b[<>=!&|".toList := by
    intro hmem
    rw [hsigns first hmem] at h
    cases h
  unfold cutInside
  split_ifs with hbrace hbracket hnumber hkeyword hrunning hoperator hword
  · exact absurd (by simp [hbrace]) hsign
  · exact absurd (by simp [hbracket.1]) hsign
  · intro c hc
    exact isNamePart_of_mantissa (by simpa using List.mem_takeWhile_imp hc)
  · intro c hc
    cases List.mem_singleton.1 hc
    rfl
  · exact absurd (List.mem_append_right ['\x7b', '['] (List.contains_iff_mem.1 hrunning)) hsign
  · exact fun c hc => (List.not_mem_nil hc).elim
  · intro c hc
    have hpart := List.mem_takeWhile_imp hc
    simp only [Bool.or_eq_true, beq_iff_eq] at hpart
    rcases hpart with (halphanum | rfl) | rfl
    · simp [Token.isNamePart, halphanum]
    · rfl
    · rfl
  · exact fun c hc => (List.not_mem_nil hc).elim

/-- A front whose characters pass a test ends before the first that fails it. -/
theorem prefix_of_forall {p : Char → Bool} (h : ds <+: cs ++ rest) (hds : ∀ c ∈ ds, p c)
    (hrest : ∀ c ∈ rest.head?, p c = false) : ds <+: cs := by
  rcases List.prefix_or_prefix_of_prefix h (List.prefix_append cs rest) with hprefix | ⟨more, rfl⟩
  · exact hprefix
  · cases more with
    | nil => simp
    | cons c more =>
      obtain ⟨rest, rfl⟩ := (List.prefix_append_right_inj cs).1 h
      have hfails := hrest c rfl
      rw [hds c (by simp)] at hfails
      cases hfails

/-- **The pieces of a name end where the name ends**, though a dollar sign or a
    point may be one of its own. -/
theorem ends_name (hcs : ∀ c ∈ cs, Token.isNamePart c)
    (hrest : ∀ c ∈ rest.head?, Token.isNamePart c = false) : Ends cs rest := by
  -- on the length: the piece in front is a front of the name
  induction hlength : cs.length using Nat.strong_induction_on generalizing cs with
  | _ length ih =>
  cases cs with
  | nil => exact ends_nil rest
  | cons first cs =>
    obtain ⟨hfirst, hmore⟩ := List.forall_mem_cons.1 hcs
    have happend := cutInside_append first (cs ++ rest)
    obtain ⟨back, hback⟩ := prefix_of_forall ⟨_, happend⟩
      (isNamePart_tail_cutInside hfirst (cs ++ rest)) hrest
    generalize hcut : cutInside first (cs ++ rest) = cut at happend hback
    obtain ⟨kind, next, tail, left⟩ := cut
    obtain rfl : cs = tail ++ back := hback.symm
    obtain rfl : left = back ++ rest :=
      List.append_cancel_left (happend.trans (List.append_assoc _ _ _))
    obtain rfl : next = .inside := by
      have hnext := next_cutInside first (tail ++ back ++ rest)
      rwa [hcut] at hnext
    have hseparator : first ≠ ';' := by
      rintro rfl
      cases hfirst
    rw [List.append_assoc] at hcut
    have hpiece := onePiece_of_cut hseparator (Token.isBlank_of_isNamePart hfirst) hcut
    have hlt : back.length < length := by
      rw [← hlength, List.length_cons, List.length_append]
      omega
    exact hpiece.ends.append (ih _ hlt (fun c hc => hmore c (List.mem_append_right _ hc)) rfl)

/-! ## Places in a source -/

/-- A piece of the source starts behind this front. -/
def Starts (source front cs : List Char) : Prop :=
  ∃ ps, pieces .opening source = ps ++ pieces .inside cs ∧ joined ps = front

/-- Pieces of the source come up to this front, but for signs that may run on. -/
def Reaches (source front cs : List Char) : Prop :=
  ∃ back run, Starts source back (run ++ cs) ∧ front = back ++ run ∧ ∀ c ∈ run, isRunning c

/-- The piece stands behind this front. -/
def Stands (ps : List (Kind × List Char)) (front : List Char) (piece : Kind × List Char) : Prop :=
  ∃ before after, ps = before ++ piece :: after ∧ joined before = front

theorem Starts.reaches (h : Starts source front cs) : Reaches source front cs :=
  ⟨front, [], h, (List.append_nil front).symm, by simp⟩

theorem Starts.ends (h : Starts source front (cs ++ rest)) (hcs : Ends cs rest) :
    Starts source (front ++ cs) rest := by
  obtain ⟨ps, hps, rfl⟩ := h
  obtain ⟨qs, hqs⟩ := hcs
  refine ⟨ps ++ qs, by rw [hps, hqs, List.append_assoc], ?_⟩
  have hjoined := congrArg joined hqs
  rw [joined_append, joined_pieces, joined_pieces] at hjoined
  rw [joined_append, List.append_cancel_right hjoined]

theorem Starts.stands (h : Starts source front (cs ++ rest)) (hcs : OnePiece kind cs rest) :
    Stands (pieces .opening source) front (kind, cs) := by
  obtain ⟨ps, hps, rfl⟩ := h
  exact ⟨ps, pieces .inside rest, by rw [hps, hcs], rfl⟩

theorem Reaches.starts (h : Reaches source front cs) (hcs : ∀ c ∈ cs.head?, isRunning c = false) :
    Starts source front cs := by
  obtain ⟨back, run, hstarts, rfl, hrun⟩ := h
  exact hstarts.ends (ends_running hrun hcs)

theorem Reaches.ends (h : Reaches source front (cs ++ rest))
    (hfirst : ∀ c ∈ (cs ++ rest).head?, isRunning c = false) (hcs : Ends cs rest) :
    Reaches source (front ++ cs) rest :=
  ((h.starts hfirst).ends hcs).reaches

theorem Reaches.piece (h : Reaches source front (cs ++ rest))
    (hfirst : ∀ c ∈ (cs ++ rest).head?, isRunning c = false) (hcs : OnePiece kind cs rest) :
    Reaches source (front ++ cs) rest ∧ Stands (pieces .opening source) front (kind, cs) :=
  ⟨h.ends hfirst hcs.ends, (h.starts hfirst).stands hcs⟩

theorem Reaches.running (h : Reaches source front (cs ++ rest)) (hcs : ∀ c ∈ cs, isRunning c) :
    Reaches source (front ++ cs) rest := by
  obtain ⟨back, run, hstarts, rfl, hrun⟩ := h
  rw [← List.append_assoc] at hstarts
  exact ⟨back, run ++ cs, hstarts, List.append_assoc _ _ _, List.forall_mem_append.2 ⟨hrun, hcs⟩⟩

/-- A character of a class without running signs is none of them. -/
theorem isRunning_eq_false {test : Char → Bool} (hsigns : ∀ c ∈ "<>=!&|".toList, test c = false)
    (h : test c) : isRunning c = false := by
  by_contra hrunning
  rw [Bool.not_eq_false] at hrunning
  rw [hsigns c (List.contains_iff_mem.1 hrunning)] at h
  cases h

theorem isRunning_of_isBlank : isBlank c → isRunning c = false :=
  isRunning_eq_false (List.all_iff_forall_prop.1 (by decide +kernel))

theorem isRunning_of_isNamePart : Token.isNamePart c → isRunning c = false :=
  isRunning_eq_false (List.all_iff_forall_prop.1 (by decide +kernel))

theorem Reaches.blanks (h : Reaches source front (cs ++ rest)) (hcs : ∀ c ∈ cs, isBlank c)
    (hrest : ∀ c ∈ rest.head?, isBlank c = false) : Reaches source (front ++ cs) rest := by
  cases cs with
  | nil => rwa [List.append_nil]
  | cons first cs =>
    have hfirst := isRunning_of_isBlank (hcs first List.mem_cons_self)
    exact h.ends (by simpa using hfirst) (ends_blanks hcs hrest)

/-- A return whose text does not start with `#` is coloured sign by sign. -/
theorem reaches_return (h : cs.head? ≠ some '#') : Reaches ('=' :: cs) ['='] cs := by
  have hblank : isBlank '=' = false := by decide +kernel
  have hcut : cut .opening '=' cs = cut .inside '=' cs := by
    simp [cut, h, hblank]
  refine ⟨[], ['='], ⟨[], ?_, rfl⟩, rfl, by simp [isRunning]⟩
  rw [List.nil_append, List.singleton_append, pieces, pieces, hcut]

/-! ## Pieces of a kind -/

theorem Stands.mem {ps : List (Kind × List Char)} {piece : Kind × List Char}
    (h : Stands ps front piece) : piece ∈ ps := by
  obtain ⟨before, after, rfl, -⟩ := h
  exact List.mem_append_right _ List.mem_cons_self

/-- No piece starts inside another. -/
theorem Stands.outside {ps : List (Kind × List Char)} {piece piece' : Kind × List Char}
    {front front' : List Char} (h : Stands ps front piece) (h' : Stands ps front' piece') :
    front'.length ≤ front.length ∨ front.length + piece.2.length ≤ front'.length := by
  obtain ⟨before, after, rfl, rfl⟩ := h
  obtain ⟨before', after', hps, rfl⟩ := h'
  rcases List.append_eq_append_iff.1 hps with ⟨more, rfl, hmore⟩ | ⟨more, rfl, hmore⟩
  · rw [joined_append, List.length_append]
    rcases List.cons_eq_append_iff.1 hmore with ⟨rfl, -⟩ | ⟨more, rfl, -⟩
    · exact .inl (by simp [joined])
    · refine .inr ?_
      rw [joined_cons, List.length_append]
      omega
  · rw [joined_append, List.length_append]
    exact .inl (Nat.le_add_right _ _)

/-- What the kind of a piece says of its characters and of those behind it. -/
structure Cut.Tells (first : Char) (cut : Cut) : Prop where
  number : cut.kind = .number → ∀ c ∈ first :: cut.tail, c.isDigit ∨ c = '.'
  keyword : cut.kind = .keyword → cut.rest.head? = some '('

theorem tells_cutInside (first : Char) (cs : List Char) : (cutInside first cs).Tells first := by
  unfold cutInside
  split_ifs with hbrace hbracket hstarts hkeyword hrunning hoperator hword
  · exact ⟨Kind.noConfusion, Kind.noConfusion⟩
  · exact ⟨Kind.noConfusion, Kind.noConfusion⟩
  · refine ⟨fun _ => List.forall_mem_cons.2 ⟨?_, fun c hc => ?_⟩, Kind.noConfusion⟩
    · exact first_of_startsNumber hstarts
    · simpa using List.mem_takeWhile_imp hc
  · obtain ⟨more, rfl⟩ := List.isPrefixOf_iff_prefix.1 hkeyword.2
    exact ⟨Kind.noConfusion, fun _ => rfl⟩
  · exact ⟨Kind.noConfusion, Kind.noConfusion⟩
  · exact ⟨Kind.noConfusion, Kind.noConfusion⟩
  · exact ⟨Kind.noConfusion, Kind.noConfusion⟩
  · exact ⟨Kind.noConfusion, Kind.noConfusion⟩

theorem tells_cut (place : Place) (first : Char) (cs : List Char) :
    (cut place first cs).Tells first := by
  unfold cut
  split_ifs
  · exact ⟨Kind.noConfusion, Kind.noConfusion⟩
  · exact ⟨Kind.noConfusion, Kind.noConfusion⟩
  · exact ⟨Kind.noConfusion, Kind.noConfusion⟩
  · exact ⟨Kind.noConfusion, Kind.noConfusion⟩
  · exact ⟨Kind.noConfusion, Kind.noConfusion⟩
  · exact tells_cutInside first cs

/-- A literal piece is digits and points. -/
theorem digits_of_mem_pieces : ∀ piece ∈ pieces place cs, piece.1 = .number →
    ∀ c ∈ piece.2, c.isDigit ∨ c = '.' := by
  induction place, cs using pieces.induct with
  | case1 place => simp [pieces]
  | case2 place first cs piece ih =>
    rw [pieces, List.forall_mem_cons]
    exact ⟨(tells_cut place first cs).number, ih⟩

/-- Behind a keyword stands its parenthesis. -/
theorem head?_of_keyword {after : List (Kind × List Char)} : ∀ before,
    pieces place cs = before ++ (.keyword, ds) :: after → (joined after).head? = some '(' := by
  induction place, cs using pieces.induct with
  | case1 place => simp [pieces]
  | case2 place first cs piece ih =>
    intro before h
    rw [pieces] at h
    cases before with
    | nil =>
      obtain ⟨hpiece, rfl⟩ := List.cons_eq_cons.1 h
      rw [joined_pieces]
      exact (tells_cut place first cs).keyword (congrArg Prod.fst hpiece)
    | cons piece' before => exact ih before (List.cons_eq_cons.1 h).2

/-! ## Spans -/

/-- Fronts of a text with equally many bytes are the same. -/
theorem eq_of_utf8ByteSize_eq (h : cs <+: source) (h' : ds <+: source)
    (hsize : (String.ofList cs).utf8ByteSize = (String.ofList ds).utf8ByteSize) : cs = ds := by
  have hnil {cs more : List Char} (hsize : (String.ofList cs).utf8ByteSize =
      (String.ofList (cs ++ more)).utf8ByteSize) : more = [] := by
    rw [String.ofList_append, String.utf8ByteSize_append] at hsize
    exact String.ofList_eq_empty_iff.1 (String.utf8ByteSize_eq_zero_iff.1 (by omega))
  rcases List.prefix_or_prefix_of_prefix h h' with ⟨more, rfl⟩ | ⟨more, rfl⟩
  · rw [hnil hsize, List.append_nil]
  · rw [hnil hsize.symm, List.append_nil]

/-- A span of the source, and no other like it, is a piece in its place. -/
theorem count_highlight_eq_one_iff {source : String} (h : front <+: source.toList) (kind : Kind)
    (cs : List Char) :
    (highlight source).count ⟨kind, .ofList cs, (String.ofList front).utf8ByteSize⟩ = 1 ↔
      Stands (pieces .opening source.toList) front (kind, cs) := by
  have hnodup : (highlight source).Nodup := nodup_placed 0 ne_nil_of_mem_pieces
  have hcount : (highlight source).count ⟨kind, .ofList cs, (String.ofList front).utf8ByteSize⟩ =
      1 ↔ ⟨kind, .ofList cs, (String.ofList front).utf8ByteSize⟩ ∈ highlight source := by
    rw [hnodup.count]
    split_ifs with hmem <;> simp [hmem]
  rw [hcount]
  constructor
  · intro hmem
    obtain ⟨before, piece, after, hpieces, hspan⟩ := exists_of_mem_placed hmem
    obtain ⟨hkind, htext, hstart⟩ := Span.mk.inj hspan
    have hwhole := joined_pieces .opening source.toList
    rw [hpieces, joined_append] at hwhole
    have hfront : front = joined before :=
      eq_of_utf8ByteSize_eq h ⟨_, hwhole⟩ (hstart.trans (Nat.zero_add _))
    have hpiece : piece = (kind, cs) := Prod.ext hkind.symm (String.ofList_injective htext).symm
    exact ⟨before, after, hpiece ▸ hpieces, hfront.symm⟩
  · rintro ⟨before, after, hpieces, rfl⟩
    rw [highlight, hpieces, placed_append, Nat.zero_add]
    exact List.mem_append_right _ List.mem_cons_self

end ProductFormula.Highlight
