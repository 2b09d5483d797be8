/-
  Statements are coloured one by one.

  A piece of a source is cut off without a look behind the semicolon that ends
  its statement (`cut_before`), and behind a semicolon colouring starts anew.
  So the pieces of a source are those of its statements, with the semicolons
  between them (`pieces_append_separator`, `splitOnP_pieces`), and a change in
  one statement does not colour another.

  * `Cut.before` is a cut with more text behind it;
  * `separator_iff_mem` tells separators from other pieces by their text;
  * `highlight_statementwise` says all this of sources and places in bytes.
-/
import ProductFormula.Proofs.Calculation.Source
import ProductFormula.Proofs.Highlight.Coverage
import ProductFormula.Proofs.Text.Cut

namespace ProductFormula.Highlight

variable {place next : Place} {kind : Kind} {p : Char → Bool} {first close : Char}
  {cs rest : List Char}

/-! ## Cuts in front of a separator -/

/-- The cut of a text with more behind it. -/
def Cut.before (rest : List Char) (c : Cut) : Cut := { c with rest := c.rest ++ rest }

theorem while_before (h : p ';' = false) (cs rest : List Char) :
    Cut.while kind next p (cs ++ ';' :: rest) =
      (Cut.while kind next p cs).before (';' :: rest) := by
  rw [Cut.while, Text.splitWhile_append_cons h]
  rfl

/-- What is closed is closed before the statement ends. -/
theorem closing_before (h : close ≠ ';') (cs rest : List Char) :
    closing close (cs ++ ';' :: rest) =
      ((closing close cs).1, (closing close cs).2 ++ ';' :: rest) := by
  rw [closing, Text.splitWhile_append_cons (by simp), closing]
  obtain ⟨tail, left⟩ := Text.splitWhile (fun c => c != ';' && c != close) cs
  cases left with
  | nil => simp [Ne.symm h]
  | cons c left =>
    by_cases hc : c = close
    · simp [hc]
    · simp [hc]

theorem closed_before (h : close ≠ ';') (cs rest : List Char) :
    Cut.closed kind close (cs ++ ';' :: rest) =
      (Cut.closed kind close cs).before (';' :: rest) := by
  rw [Cut.closed, closing_before h]
  rfl

theorem isNameBracket_before (cs rest : List Char) :
    isNameBracket (cs ++ ';' :: rest) = isNameBracket cs := by
  rw [isNameBracket, closing_before (by decide), isNameBracket]

theorem startsNumber_before (first : Char) (cs rest : List Char) :
    startsNumber first (cs ++ ';' :: rest) = startsNumber first cs := by
  cases cs with
  | nil => simp [startsNumber]
  | cons => rfl

theorem head?_before (h : first ≠ ';') (cs rest : List Char) :
    (cs ++ ';' :: rest).head? = some first ↔ cs.head? = some first := by
  cases cs with
  | nil => simp [Ne.symm h]
  | cons => rfl

theorem isPrefixOf_before (cs rest : List Char) :
    ['E', '('].isPrefixOf (cs ++ ';' :: rest) = ['E', '('].isPrefixOf cs := by
  rcases cs with _ | ⟨c, _ | ⟨c', cs⟩⟩ <;> simp [List.isPrefixOf]

theorem cutInside_before (first : Char) (cs rest : List Char) :
    cutInside first (cs ++ ';' :: rest) = (cutInside first cs).before (';' :: rest) := by
  unfold cutInside
  rw [isNameBracket_before, startsNumber_before, isPrefixOf_before]
  split_ifs with hbrace hbracket hnumber hkeyword hrunning hoperator hword
  · exact closed_before (by decide) cs rest
  · exact closed_before (by decide) cs rest
  · exact while_before (by decide) cs rest
  · obtain ⟨left, rfl⟩ := List.isPrefixOf_iff_prefix.1 hkeyword.2
    rfl
  · exact while_before (by decide) cs rest
  · rfl
  · exact while_before (by decide) cs rest
  · rfl

/-- **A piece is cut off without a look behind its statement.** -/
theorem cut_before (place : Place) (first : Char) (cs rest : List Char) :
    cut place first (cs ++ ';' :: rest) = (cut place first cs).before (';' :: rest) := by
  have hslash : (cs ++ ';' :: rest).head? = some '/' ↔ cs.head? = some '/' :=
    head?_before (by decide) cs rest
  have hhash : (cs ++ ';' :: rest).head? = some '#' ↔ cs.head? = some '#' :=
    head?_before (by decide) cs rest
  unfold cut
  simp only [hslash, hhash]
  split_ifs with hseparator hpayload hblank hcomment hreturn
  · rfl
  · exact while_before (by decide) cs rest
  · exact while_before (by decide) cs rest
  · exact while_before (by decide) cs rest
  · obtain ⟨left, rfl⟩ := List.head?_eq_some_iff.1 hreturn.2.2
    rfl
  · exact cutInside_before first cs rest

/-- No piece runs on behind a semicolon. -/
theorem not_mem_tail_cut (place : Place) (first : Char) (cs : List Char) :
    ';' ∉ (cut place first cs).tail := by
  intro h
  obtain ⟨front, back, htail⟩ := List.append_of_mem h
  have hcs : cs = front ++ ';' :: (back ++ (cut place first cs).rest) := by
    rw [← List.cons_append, ← List.append_assoc, ← htail, cut_append]
  -- the piece is the one that the text in front of that semicolon starts with
  have hfront : (cut place first cs).tail = (cut place first front).tail := by
    conv_lhs => rw [hcs, cut_before]
    rfl
  have hlength := congrArg List.length (cut_append place first front)
  rw [List.length_append, ← hfront, htail, List.length_append, List.length_cons] at hlength
  omega

theorem kind_cutInside_ne (first : Char) (cs : List Char) :
    (cutInside first cs).kind ≠ .separator := by
  unfold cutInside
  split_ifs <;> simp [Cut.closed, Cut.while, Cut.single]

/-- Only a semicolon is a separator. -/
theorem kind_cut_eq_separator_iff :
    (cut place first cs).kind = .separator ↔ first = ';' := by
  by_cases hseparator : first = ';'
  · subst hseparator
    exact iff_of_true rfl rfl
  · refine iff_of_false ?_ hseparator
    unfold cut
    rw [if_neg hseparator]
    split_ifs <;> simp [Cut.while, kind_cutInside_ne]

/-! ## Pieces of statements -/

theorem pieces_separator (place : Place) (cs : List Char) :
    pieces place (';' :: cs) = (.separator, [';']) :: pieces .opening cs := by
  rw [pieces]
  rfl

/-- **Behind a semicolon colouring starts anew**, and in front of it nothing is
    coloured otherwise than at the end of a text. -/
theorem pieces_append_separator (place : Place) (cs rest : List Char) :
    pieces place (cs ++ ';' :: rest) =
      pieces place cs ++ (.separator, [';']) :: pieces .opening rest := by
  induction place, cs using pieces.induct with
  | case1 place =>
    rw [List.nil_append, pieces_separator, pieces]
    rfl
  | case2 place first cs piece ih =>
    rw [List.cons_append, pieces, pieces, cut_before, List.cons_append]
    exact congrArg _ ih

/-- The separators are the pieces with a semicolon. -/
theorem separator_iff_mem : ∀ piece ∈ pieces place cs, piece.1 = .separator ↔ ';' ∈ piece.2 := by
  induction place, cs using pieces.induct with
  | case1 place => simp [pieces]
  | case2 place first cs piece ih =>
    rw [pieces, List.forall_mem_cons]
    refine ⟨?_, ih⟩
    rw [kind_cut_eq_separator_iff, List.mem_cons]
    exact ⟨fun h => .inl h.symm, fun h => h.elim Eq.symm (absurd · (not_mem_tail_cut _ _ _))⟩

/-- Whether a piece is a separator. -/
def isSeparator (piece : Kind × List Char) : Bool := piece.1 == .separator

theorem isSeparator_eq_false (h : ';' ∉ cs) :
    ∀ piece ∈ pieces place cs, isSeparator piece = false := by
  intro piece hpiece
  rw [isSeparator, beq_eq_false_iff_ne, ne_eq, separator_iff_mem piece hpiece]
  intro hmem
  refine h ?_
  rw [← joined_pieces place cs]
  exact List.mem_flatMap.2 ⟨piece, hpiece, hmem⟩

/-- Statements put together are coloured with the separators where they meet. -/
theorem splitOnP_pieces_joinStatements (ss : List (List Char)) (hss : ∀ s ∈ ss, ';' ∉ s)
    (hne : ss ≠ []) :
    (pieces .opening (joinStatements ss)).splitOnP isSeparator = ss.map (pieces .opening) := by
  induction ss with
  | nil => exact absurd rfl hne
  | cons s ss ih =>
    obtain ⟨hs, hrest⟩ := List.forall_mem_cons.1 hss
    by_cases hnil : ss = []
    · subst hnil
      rw [joinStatements, List.intercalate_singleton,
        List.splitOnP_eq_singleton (isSeparator_eq_false hs)]
      rfl
    · rw [joinStatements, List.intercalate_cons_of_ne_nil hnil, List.append_assoc,
        List.singleton_append, pieces_append_separator,
        List.splitOnP_append_cons_of_forall_mem (isSeparator_eq_false hs) _ rfl]
      exact congrArg _ (ih hrest hnil)

/-- **Between the separators stand the pieces of the statements.** -/
theorem splitOnP_pieces (cs : List Char) :
    (pieces .opening cs).splitOnP isSeparator = (statements cs).map (pieces .opening) := by
  conv_lhs => rw [← joinStatements_statements cs]
  exact splitOnP_pieces_joinStatements _ undivided_of_mem_statements (statements_ne_nil cs)

/-! ## Spans of statements -/

/-- The same piece that many bytes further behind. -/
def Span.moved (bytes : Nat) (span : Span) : Span := { span with start := span.start + bytes }

theorem placed_add (start bytes : Nat) (ps : List (Kind × List Char)) :
    placed (start + bytes) ps = (placed start ps).map (.moved bytes) := by
  induction ps generalizing start with
  | nil => rfl
  | cons piece ps ih =>
    rw [placed, placed, List.map_cons, ← ih, Span.stop, Span.stop, Nat.add_right_comm]
    rfl

theorem highlight_append (front back : String) : highlight (front ++ ";" ++ back) =
    highlight front ++ ⟨.separator, ";", front.utf8ByteSize⟩ ::
      (highlight back).map (.moved (front.utf8ByteSize + 1)) := by
  have hback : placed (front.utf8ByteSize + 1) (pieces .opening back.toList) =
      (highlight back).map (.moved (front.utf8ByteSize + 1)) := by
    rw [highlight, ← placed_add, Nat.zero_add]
  rw [highlight, toList_joined, pieces_append_separator, placed_append, size_pieces, placed,
    Nat.zero_add, ← hback]
  rfl

/-- The source is coloured as its statements are. -/
structure Statementwise (source : String) : Prop where
  /-- behind a semicolon everything is coloured as if in a source of its own -/
  append : ∀ front back, source = front ++ ";" ++ back →
    highlight source = highlight front ++ ⟨.separator, ";", front.utf8ByteSize⟩ ::
      (highlight back).map (.moved (front.utf8ByteSize + 1))
  separator_iff : ∀ span ∈ highlight source, span.kind = .separator ↔ ';' ∈ span.text.toList
  /-- what stands between the separators is the statements -/
  statements_eq : ((highlight source).splitOnP fun span => span.kind == .separator).map joinedText =
    (statements source.toList).map .ofList

theorem splitOnP_highlight (source : String) :
    ((highlight source).splitOnP fun span => span.kind == .separator).map (List.map Span.piece) =
      (statements source.toList).map (pieces .opening) := by
  rw [← splitOnP_pieces, ← map_piece_highlight, splitOnP_map]
  rfl

/-- **A source is coloured statement by statement.** -/
theorem highlight_statementwise (source : String) : Statementwise source where
  append := by
    rintro front back rfl
    exact highlight_append front back
  separator_iff span h := by
    have hpiece : span.piece ∈ pieces .opening source.toList := by
      rw [← map_piece_highlight]
      exact List.mem_map_of_mem h
    exact separator_iff_mem span.piece hpiece
  statements_eq := by
    have hspans : joinedText = String.ofList ∘ joined ∘ List.map Span.piece := by
      funext spans
      exact joinedText_eq spans
    have hpieces : joined ∘ pieces .opening = id := by
      funext s
      exact joined_pieces .opening s
    rw [hspans, ← Function.comp_assoc, ← List.map_map, splitOnP_highlight, List.map_map,
      Function.comp_assoc, hpieces, Function.comp_id]

end ProductFormula.Highlight
