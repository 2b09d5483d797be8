/-
  How words are written.

  `Spells raw t` says that the characters `raw` are a way to write the token
  `t`: a decimal, a quoted string, the characters of a name, a text between
  braces, or the one spelling of a symbol or glyph.  Nothing is said of where
  the characters stand.

  * `spellsWords_scan`: a word is cut off with characters that spell it, none
    more and none less.
-/
import ProductFormula.Proofs.Token.Surroundings

namespace ProductFormula.Token

open Text

/-- These characters are a way to write the token. -/
inductive Spells : List Char → Token → Prop
  | number {raw d} : Decimal.ofChars? raw = some d → Spells raw (.number (d.toNumber false))
  | string {quote raw content} : quote = '"' ∨ quote = '\'' →
      stringContent? quote raw = some (content, []) →
      Spells (quote :: raw) (.string (.ofList content))
  | name {raw} : (∀ c ∈ raw, isNamePart c) → Spells raw (.name (.ofList raw))
  | reference {inner} : '\x7d' ∉ inner →
      Spells ('\x7b' :: (inner ++ ['\x7d'])) (ofReferenceText inner)
  | superscript (s : Superscript) (called : Bool) :
      Spells s.symbol.toList (.superscript s called)
  | glyph (g : Glyph) (called : Bool) : Spells g.symbol.toList (.glyph g called)
  | symbol (s : Symbol) : Spells s.spelling.toList (.symbol s)

variable {first : Char} {cs raw rest : List Char} {t : Token}

/-- What stands between braces is a reference or no word. -/
theorem ofReferenceText_cases (cs : List Char) :
    (∃ fault, ofReferenceText cs = .invalid fault) ∨
      ∃ name optional, ofReferenceText cs = .reference name optional := by
  unfold ofReferenceText
  split
  · exact .inl ⟨_, rfl⟩
  next text =>
    by_cases htext : text = []
    · exact .inl ⟨_, if_pos htext⟩
    · exact .inr ⟨_, _, if_neg htext⟩
  · exact .inr ⟨_, _, rfl⟩

theorem ofReferenceText_ne (hfault : ∀ fault, t ≠ .invalid fault)
    (hreference : ∀ name optional, t ≠ .reference name optional) : ofReferenceText cs ≠ t := by
  rintro rfl
  obtain ⟨fault, h⟩ | ⟨name, optional, h⟩ := ofReferenceText_cases cs
  · exact hfault fault h
  · exact hreference name optional h

theorem exists_reference (h : Grammar.Valid (ofReferenceText cs)) :
    ∃ name optional, ofReferenceText cs = .reference name optional := by
  obtain ⟨fault, hfault⟩ | hreference := ofReferenceText_cases cs
  · rw [hfault] at h
    exact h.elim
  · exact hreference

/-- A literal is written as a decimal. -/
theorem Spells.number_inv {n : Number} (h : Spells raw (.number n)) :
    ∃ d, Decimal.ofChars? raw = some d ∧ d.toNumber false = n := by
  generalize ht : Token.number n = t at h
  cases h with
  | number hread =>
    cases ht
    exact ⟨_, hread, rfl⟩
  | reference => exact absurd ht.symm (ofReferenceText_ne (by simp) (by simp))
  | _ => cases ht

theorem Spells.name_inv {name : String} (h : Spells raw (.name name)) :
    name = .ofList raw ∧ ∀ c ∈ raw, isNamePart c := by
  generalize ht : Token.name name = t at h
  cases h with
  | name hpart =>
    cases ht
    exact ⟨rfl, hpart⟩
  | reference => exact absurd ht.symm (ofReferenceText_ne (by simp) (by simp))
  | _ => cases ht

theorem Spells.symbol_inv {s : Symbol} (h : Spells raw (.symbol s)) : raw = s.spelling.toList := by
  generalize ht : Token.symbol s = t at h
  cases h with
  | symbol =>
    cases ht
    rfl
  | reference => exact absurd ht.symm (ofReferenceText_ne (by simp) (by simp))
  | _ => cases ht

/-! ## Nothing is lost -/

theorem spanFraction_append (cs : List Char) : (spanFraction cs).1 ++ (spanFraction cs).2 = cs := by
  unfold spanFraction
  split
  · rw [List.cons_append, splitWhile_append]
  · rfl

theorem spanSign_append (cs : List Char) : (spanSign cs).1 ++ (spanSign cs).2 = cs := by
  unfold spanSign
  split <;> rfl

theorem spanExponent_append (cs : List Char) : (spanExponent cs).1 ++ (spanExponent cs).2 = cs := by
  unfold spanExponent
  split
  · rfl
  · split
    · dsimp only
      rw [List.cons_append, List.cons_append, List.append_assoc, splitWhile_append, spanSign_append]
    · rfl

theorem spanMantissa_append (first : Char) (cs : List Char) :
    (spanMantissa first cs).1 ++ (spanMantissa first cs).2 = first :: cs := by
  unfold spanMantissa
  split
  · dsimp only
    rw [List.cons_append, splitWhile_append]
  · dsimp only
    rw [List.cons_append, List.cons_append, List.append_assoc, spanFraction_append,
      splitWhile_append]

theorem spanNumber_append (first : Char) (cs : List Char) :
    (spanNumber first cs).1 ++ (spanNumber first cs).2 = first :: cs := by
  unfold spanNumber
  rw [List.append_assoc, spanExponent_append, spanMantissa_append]

/-- A text without tokens is blank. -/
theorem isBlank_of_lex_eq_nil (h : lex cs = []) : ∀ c ∈ cs, isBlank c := by
  rw [lex_eq] at h
  split at h
  next htrim => exact List.dropWhile_eq_nil_iff.1 htrim
  · cases h

/-! ## Cutting off -/

/-- Behind this character the scanner takes what spells its word. -/
def SpellsWords (first : Char) (f : List Char → Token × List Char) : Prop :=
  ∀ raw rest t, f (raw ++ rest) = (t, rest) → Grammar.Valid t → Spells (first :: raw) t

theorem spelling_of_symbolOf? {s : Symbol} (h : symbolOf? first = some s) :
    s.spelling.toList = [first] := by
  unfold symbolOf? at h
  split at h <;> cases h <;> rfl

/-- A single character, whatever stands behind it. -/
theorem spellsWords_single {token : List Char → Token}
    (h : ∀ rest, Spells [first] (token rest)) : SpellsWords first fun cs => (token cs, cs) := by
  intro raw rest t hcut _
  obtain ⟨rfl, hrest⟩ := Prod.mk.inj hcut
  obtain rfl : raw = [] := by simpa using hrest
  exact h rest

theorem spellsWords_scanThree : SpellsWords '³' scanThree := by
  intro raw rest t hcut _
  unfold scanThree at hcut
  split at hcut
  next more hmore =>
    obtain ⟨rfl, rfl⟩ := Prod.mk.inj hcut
    obtain rfl : raw = ['√'] := List.append_cancel_right (by simpa using hmore)
    exact .glyph .cubeRoot _
  next =>
    obtain ⟨rfl, hrest⟩ := Prod.mk.inj hcut
    obtain rfl : raw = [] := by simpa using hrest
    exact .superscript .three _

theorem spellsWords_scanEquals : SpellsWords '=' scanEquals := by
  intro raw rest t hcut hvalid
  unfold scanEquals at hcut
  split at hcut
  next more hmore =>
    obtain ⟨rfl, rfl⟩ := Prod.mk.inj hcut
    obtain rfl : raw = ['=', '='] := List.append_cancel_right (by simpa using hmore)
    exact .symbol .strictEqual
  next more _ hmore =>
    obtain ⟨rfl, rfl⟩ := Prod.mk.inj hcut
    obtain rfl : raw = ['='] := List.append_cancel_right (by simpa using hmore)
    exact .symbol .equal
  next =>
    rw [← (Prod.mk.inj hcut).1] at hvalid
    exact hvalid.elim

theorem spellsWords_scanBang : SpellsWords '!' scanBang := by
  intro raw rest t hcut _
  unfold scanBang at hcut
  split at hcut
  next more hmore =>
    obtain ⟨rfl, rfl⟩ := Prod.mk.inj hcut
    obtain rfl : raw = ['=', '='] := List.append_cancel_right (by simpa using hmore)
    exact .symbol .strictNotEqual
  next more _ hmore =>
    obtain ⟨rfl, rfl⟩ := Prod.mk.inj hcut
    obtain rfl : raw = ['='] := List.append_cancel_right (by simpa using hmore)
    exact .symbol .notEqual
  next =>
    obtain ⟨rfl, hrest⟩ := Prod.mk.inj hcut
    obtain rfl : raw = [] := by simpa using hrest
    exact .symbol .bang

theorem spellsWords_scanOrEqual {orEqual plain : Symbol}
    (horEqual : orEqual.spelling.toList = [first, '=']) (hplain : plain.spelling.toList = [first]) :
    SpellsWords first (scanOrEqual orEqual plain) := by
  intro raw rest t hcut _
  unfold scanOrEqual at hcut
  split at hcut
  next more hmore =>
    obtain ⟨rfl, rfl⟩ := Prod.mk.inj hcut
    obtain rfl : raw = ['='] := List.append_cancel_right (by simpa using hmore)
    exact horEqual ▸ .symbol orEqual
  next =>
    obtain ⟨rfl, hrest⟩ := Prod.mk.inj hcut
    obtain rfl : raw = [] := by simpa using hrest
    exact hplain ▸ .symbol plain

theorem spellsWords_scanDouble {double : Symbol} (lone : LexicalFault)
    (hdouble : double.spelling.toList = [first, first]) :
    SpellsWords first (scanDouble first double lone) := by
  intro raw rest t hcut hvalid
  unfold scanDouble at hcut
  split at hcut
  next =>
    rw [← (Prod.mk.inj hcut).1] at hvalid
    exact hvalid.elim
  next c more hmore =>
    split at hcut
    next heq =>
      obtain ⟨rfl, rfl⟩ := Prod.mk.inj hcut
      obtain rfl : raw = [c] := List.append_cancel_right (by simpa using hmore)
      rw [heq, ← hdouble]
      exact .symbol double
    next =>
      rw [← (Prod.mk.inj hcut).1] at hvalid
      exact hvalid.elim

theorem spellsWords_scanReference : SpellsWords '\x7b' scanReference := by
  intro raw rest t hcut hvalid
  unfold scanReference at hcut
  split at hcut
  next inner c more hinner =>
    obtain ⟨rfl, rfl⟩ := Prod.mk.inj hcut
    obtain ⟨hcs, hclosing⟩ := eq_append_of_splitWhile_ne hinner
    obtain rfl : raw = inner ++ ['\x7d'] := List.append_cancel_right (by simpa using hcs)
    exact .reference hclosing
  next =>
    rw [← (Prod.mk.inj hcut).1] at hvalid
    exact hvalid.elim

theorem spellsWords_scanString {quote : Char} (hquote : quote = '"' ∨ quote = '\'') :
    SpellsWords quote (scanString quote) := by
  intro raw rest t hcut hvalid
  unfold scanString at hcut
  split at hcut
  next content more hcontent =>
    obtain ⟨rfl, rfl⟩ := Prod.mk.inj hcut
    obtain ⟨raw', hraw, hread⟩ := stringContent?_replaced hcontent
    obtain rfl : raw = raw' := List.append_cancel_right hraw
    have halone := hread []
    rw [List.append_nil] at halone
    exact .string hquote halone
  next =>
    rw [← (Prod.mk.inj hcut).1] at hvalid
    exact hvalid.elim

theorem spellsWords_scanWord (first : Char) : SpellsWords first (scanWord first) := by
  intro raw rest t hcut hvalid
  unfold scanWord at hcut
  split at hcut
  next =>
    have happend := spanNumber_append first (raw ++ rest)
    obtain ⟨text, more, hspan⟩ : ∃ text more, spanNumber first (raw ++ rest) = (text, more) :=
      ⟨_, _, rfl⟩
    rw [hspan] at hcut happend
    obtain ⟨rfl, rfl⟩ := Prod.mk.inj hcut
    obtain rfl : text = first :: raw := List.append_cancel_right happend
    unfold ofNumberText at hvalid ⊢
    split
    next d hread => exact .number hread
    next hread =>
      rw [hread] at hvalid
      exact hvalid.elim
  next =>
    split at hcut
    next hstart =>
      have happend := splitWhile_append isNamePart (raw ++ rest)
      have hpart : ∀ c ∈ (splitWhile isNamePart (raw ++ rest)).1, isNamePart c :=
        fun c hc => List.mem_takeWhile_imp hc
      obtain ⟨text, more, hspan⟩ : ∃ text more, splitWhile isNamePart (raw ++ rest) = (text, more) :=
        ⟨_, _, rfl⟩
      rw [hspan] at hcut happend hpart
      obtain ⟨rfl, rfl⟩ := Prod.mk.inj hcut
      obtain rfl : text = raw := List.append_cancel_right happend
      exact .name (List.forall_mem_cons.2 ⟨isNamePart_of_isNameStart hstart, hpart⟩)
    next =>
      rw [← (Prod.mk.inj hcut).1] at hvalid
      exact hvalid.elim

/-- **A word is cut off with the characters that spell it.** -/
theorem spellsWords_scan (first : Char) : SpellsWords first (scan first) := by
  unfold scan
  split
  next s hsymbol =>
    refine spellsWords_single fun _ => ?_
    rw [← spelling_of_symbolOf? hsymbol]
    exact .symbol s
  · split
    · exact spellsWords_single fun _ => .superscript .one _
    · exact spellsWords_single fun _ => .superscript .two _
    · exact spellsWords_scanThree
    · exact spellsWords_single fun _ => .glyph .nearestOdd _
    · exact spellsWords_single fun _ => .glyph .nearestEven _
    · exact spellsWords_single fun _ => .glyph .squareRoot _
    · exact spellsWords_scanEquals
    · exact spellsWords_scanBang
    · exact spellsWords_scanOrEqual rfl rfl
    · exact spellsWords_scanOrEqual rfl rfl
    · exact spellsWords_scanDouble _ rfl
    · exact spellsWords_scanDouble _ rfl
    · exact spellsWords_scanReference
    · exact spellsWords_scanString (.inl rfl)
    · exact spellsWords_scanString (.inr rfl)
    · exact spellsWords_scanWord _

theorem Leads.spells {blanks : List Char} (h : Leads blanks first raw t rest)
    (hvalid : Grammar.Valid t) : Spells (first :: raw) t :=
  spellsWords_scan first raw rest t h.scanned hvalid

/-- A name is taken to its end. -/
theorem Leads.not_isNamePart {blanks : List Char} {name : String}
    (h : Leads blanks first raw (.name name) rest) :
    ∀ c ∈ rest.head?, isNamePart c = false := by
  have hfirst := (h.spells trivial).name_inv.2 first List.mem_cons_self
  have hscan := h.scanned
  rw [scan_namePart hfirst, scanWord] at hscan
  split at hscan
  · have hnumber := (Prod.mk.inj hscan).1
    unfold ofNumberText at hnumber
    split at hnumber <;> cases hnumber
  · split at hscan
    · obtain ⟨-, hdrop⟩ := Prod.mk.inj hscan
      intro c hc
      rw [← hdrop] at hc
      have hnot := List.head?_dropWhile_not isNamePart (raw ++ rest)
      rw [hc] at hnot
      simpa using hnot
    · cases hscan

end ProductFormula.Token
