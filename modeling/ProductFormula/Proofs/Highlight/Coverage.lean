/-
  Colouring loses nothing.

  The pieces of a source stand one behind the other, from its first byte to its
  last (`highlight_covers`).  None of them is empty, so there are no more of them
  than characters, and each one starts and ends where a character does, however
  many bytes that takes.

  * `joined_pieces`: the pieces joined are the text, since one piece and the
    rest are;
  * `placed_append` and `exists_of_mem_placed` say where a piece is placed:
    behind the bytes of all pieces before it.
-/
import Mathlib.Data.List.Chain
import ProductFormula.Highlight

namespace ProductFormula.Highlight

variable {place : Place} {cs : List Char} {start : Nat} {span : Span}
  {ps qs : List (Kind × List Char)}

/-! ## Pieces -/

/-- The text of pieces. -/
def joined (ps : List (Kind × List Char)) : List Char := ps.flatMap (·.2)

theorem joined_cons (p : Kind × List Char) (ps : List (Kind × List Char)) :
    joined (p :: ps) = p.2 ++ joined ps := List.flatMap_cons

theorem joined_append (ps qs : List (Kind × List Char)) :
    joined (ps ++ qs) = joined ps ++ joined qs := List.flatMap_append

/-- **The pieces of a text joined are the text.** -/
theorem joined_pieces (place : Place) (cs : List Char) : joined (pieces place cs) = cs := by
  induction place, cs using pieces.induct with
  | case1 place => rw [pieces, joined, List.flatMap_nil]
  | case2 place first cs piece ih =>
    rw [pieces, joined_cons, ih, List.cons_append, cut_append]

theorem ne_nil_of_mem_pieces : ∀ p ∈ pieces place cs, p.2 ≠ [] := by
  induction place, cs using pieces.induct with
  | case1 place => simp [pieces]
  | case2 place first cs piece ih =>
    rw [pieces, List.forall_mem_cons]
    exact ⟨List.cons_ne_nil _ _, ih⟩

/-- Every piece takes a character at least. -/
theorem length_pieces_le (place : Place) (cs : List Char) :
    (pieces place cs).length ≤ cs.length := by
  induction place, cs using pieces.induct with
  | case1 place => simp [pieces]
  | case2 place first cs piece ih =>
    have hwhole := congrArg List.length (cut_append place first cs)
    rw [List.length_append] at hwhole
    rw [pieces, List.length_cons, List.length_cons, Nat.add_le_add_iff_right]
    exact ih.trans (hwhole ▸ Nat.le_add_left _ _)

/-! ## Places -/

/-- Bytes of the text of pieces. -/
def size (ps : List (Kind × List Char)) : Nat := (String.ofList (joined ps)).utf8ByteSize

theorem size_nil : size [] = 0 := rfl

theorem size_cons (p : Kind × List Char) (ps : List (Kind × List Char)) :
    size (p :: ps) = (String.ofList p.2).utf8ByteSize + size ps := by
  rw [size, joined_cons, String.ofList_append, String.utf8ByteSize_append, size]

theorem size_append (ps qs : List (Kind × List Char)) : size (ps ++ qs) = size ps + size qs := by
  rw [size, joined_append, String.ofList_append, String.utf8ByteSize_append, size, size]

theorem size_pieces (place : Place) (s : String) :
    size (pieces place s.toList) = s.utf8ByteSize := by
  rw [size, joined_pieces, String.ofList_toList]

theorem placed_append (start : Nat) (ps qs : List (Kind × List Char)) :
    placed start (ps ++ qs) = placed start ps ++ placed (start + size ps) qs := by
  induction ps generalizing start with
  | nil => rfl
  | cons p ps ih =>
    rw [List.cons_append, placed, ih, placed, List.cons_append, size_cons, Span.stop,
      Nat.add_assoc]

/-- A piece is placed behind the bytes of the pieces before it. -/
theorem exists_of_mem_placed (h : span ∈ placed start ps) :
    ∃ front p back, ps = front ++ p :: back ∧
      span = ⟨p.1, .ofList p.2, start + size front⟩ := by
  induction ps generalizing start with
  | nil => cases h
  | cons p ps ih =>
    rcases List.mem_cons.1 h with rfl | h
    · exact ⟨[], p, ps, rfl, rfl⟩
    · obtain ⟨front, q, back, rfl, rfl⟩ := ih h
      refine ⟨p :: front, q, back, rfl, ?_⟩
      rw [size_cons, Span.stop, Nat.add_assoc]

theorem isChain_placed (start : Nat) (ps : List (Kind × List Char)) :
    (placed start ps).IsChain fun left right => left.stop = right.start := by
  induction ps generalizing start with
  | nil => exact .nil
  | cons p ps ih =>
    cases ps with
    | nil => exact .singleton _
    | cons q ps => exact List.isChain_cons_cons.2 ⟨rfl, ih _⟩

theorem start_of_mem_head? (h : span ∈ (placed start ps).head?) : span.start = start := by
  cases ps with
  | nil => cases h
  | cons p ps =>
    cases h
    rfl

theorem stop_of_mem_getLast? (h : span ∈ (placed start ps).getLast?) :
    span.stop = start + size ps := by
  rcases List.eq_nil_or_concat ps with rfl | ⟨front, p, rfl⟩
  · cases h
  · rw [List.concat_eq_append, placed_append, placed, placed, List.getLast?_concat] at h
    cases h
    rw [Span.stop, List.concat_eq_append, size_append, size_cons, size_nil, Nat.add_zero,
      Nat.add_assoc]

/-- No two pieces stand in one place. -/
theorem nodup_placed (start : Nat) (hps : ∀ p ∈ ps, p.2 ≠ []) : (placed start ps).Nodup := by
  induction ps generalizing start with
  | nil => exact List.nodup_nil
  | cons p ps ih =>
    obtain ⟨hp, hrest⟩ := List.forall_mem_cons.1 hps
    refine List.nodup_cons.2 ⟨fun hmem => ?_, ih _ hrest⟩
    obtain ⟨front, q, back, -, hspan⟩ := exists_of_mem_placed hmem
    have hstart : start = start + (String.ofList p.2).utf8ByteSize + size front :=
      congrArg Span.start hspan
    have hempty : String.ofList p.2 = "" := String.utf8ByteSize_eq_zero_iff.1 (by omega)
    exact hp (String.ofList_eq_empty_iff.1 hempty)

/-- The piece that a span places. -/
def Span.piece (span : Span) : Kind × List Char := (span.kind, span.text.toList)

theorem map_piece_placed (start : Nat) (ps : List (Kind × List Char)) :
    (placed start ps).map Span.piece = ps := by
  induction ps generalizing start with
  | nil => rfl
  | cons p ps ih => rw [placed, List.map_cons, ih, Span.piece, String.toList_ofList]

/-- The pieces of a source are those of its spans. -/
theorem map_piece_highlight (source : String) :
    (highlight source).map Span.piece = pieces .opening source.toList := map_piece_placed 0 _

/-- The text that spans have together. -/
def joinedText (spans : List Span) : String := String.join (spans.map (·.text))

theorem joinedText_eq (spans : List Span) :
    joinedText spans = .ofList (joined (spans.map Span.piece)) := by
  induction spans with
  | nil => rfl
  | cons span spans ih =>
    rw [joinedText, List.map_cons, String.join_cons, ← joinedText, ih, List.map_cons, joined_cons,
      String.ofList_append, Span.piece, String.ofList_toList]

/-- The spans of a source joined are the source. -/
theorem joinedText_highlight (source : String) : joinedText (highlight source) = source := by
  rw [joinedText_eq, map_piece_highlight, joined_pieces, String.ofList_toList]

/-! ## Coverage -/

/-- The spans are the source, cut into pieces at boundaries of characters. -/
structure Covers (source : String) (spans : List Span) : Prop where
  length_le : spans.length ≤ source.length
  text_ne_empty : ∀ span ∈ spans, span.text ≠ ""
  joinedText_eq : joinedText spans = source
  first : ∀ span ∈ spans.head?, span.start = 0
  adjacent : spans.IsChain fun left right => left.stop = right.start
  last : ∀ span ∈ spans.getLast?, span.stop = source.utf8ByteSize
  start_isValid : ∀ span ∈ spans, (⟨span.start⟩ : String.Pos.Raw).IsValid source
  stop_isValid : ∀ span ∈ spans, (⟨span.stop⟩ : String.Pos.Raw).IsValid source
  /-- the text of a span is what stands in its place -/
  located : ∀ span ∈ spans, ∃ front back,
    source = front ++ span.text ++ back ∧ front.utf8ByteSize = span.start

/-- A piece of the source stands where it is placed. -/
theorem located_of_mem_highlight {source : String} (h : span ∈ highlight source) :
    ∃ front back, source = front ++ span.text ++ back ∧ front.utf8ByteSize = span.start := by
  obtain ⟨front, p, back, hpieces, rfl⟩ := exists_of_mem_placed h
  refine ⟨.ofList (joined front), .ofList (joined back), ?_, (Nat.zero_add _).symm⟩
  have hsource := joined_pieces .opening source.toList
  rw [hpieces, joined_append, joined_cons] at hsource
  rw [String.append_assoc, ← String.ofList_append, ← String.ofList_append, hsource,
    String.ofList_toList]

theorem text_ne_empty_of_mem_highlight {source : String} (h : span ∈ highlight source) :
    span.text ≠ "" := by
  obtain ⟨front, p, back, hpieces, rfl⟩ := exists_of_mem_placed h
  have hp : p ∈ pieces .opening source.toList := by
    rw [hpieces]
    exact List.mem_append_right _ List.mem_cons_self
  exact fun hempty => ne_nil_of_mem_pieces p hp (String.ofList_eq_empty_iff.1 hempty)

/-- **Colouring loses nothing**, and cuts no character in two. -/
theorem highlight_covers (source : String) : Covers source (highlight source) where
  length_le := by
    rw [← List.length_map (f := Span.piece), map_piece_highlight, ← String.length_toList]
    exact length_pieces_le _ _
  text_ne_empty _ h := text_ne_empty_of_mem_highlight h
  joinedText_eq := by
    rw [joinedText_eq, map_piece_highlight, joined_pieces, String.ofList_toList]
  first _ h := start_of_mem_head? h
  adjacent := isChain_placed _ _
  last span h := by rw [stop_of_mem_getLast? h, size_pieces, Nat.zero_add]
  start_isValid span h := by
    obtain ⟨front, back, hsource, hstart⟩ := located_of_mem_highlight h
    refine String.Pos.Raw.isValid_iff_exists_append.2 ⟨front, span.text ++ back, ?_, ?_⟩
    · rw [hsource, String.append_assoc]
    · rw [← hstart]
      rfl
  stop_isValid span h := by
    obtain ⟨front, back, hsource, hstart⟩ := located_of_mem_highlight h
    refine String.Pos.Raw.isValid_iff_exists_append.2 ⟨front ++ span.text, back, hsource, ?_⟩
    rw [Span.stop, ← hstart, ← String.utf8ByteSize_append]
    rfl
  located _ h := located_of_mem_highlight h

end ProductFormula.Highlight
