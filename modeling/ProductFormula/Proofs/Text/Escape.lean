/-
  Escaped texts tell what they were.

  What is written for a character is one of its spellings (`Spelling`): itself,
  a backslash and a letter, or its code point in braces.  Which of them it is
  depends on tables and on where the character stands, but no spelling is the
  front of a spelling of another character (`Spelling.append_inj`).  So a text
  of spellings has one meaning (`Escaped.unique`), and `escapeChars` writes such
  a text (`escaped_escapeChars`).
-/
import ProductFormula.Proofs.Text.Cut
import ProductFormula.Text.Escape

namespace ProductFormula.Text

/-! ## Code points -/

theorem mem_toDigits {n : Nat} {d : Char} (h : d ∈ Nat.toDigits 16 n) :
    ∃ k < 16, d = Nat.digitChar k := by
  induction n using Nat.strongRecOn with
  | ind n ih =>
    rw [Nat.toDigits_eq_if (by decide)] at h
    split at h
    next hlt => exact ⟨n, hlt, List.mem_singleton.1 h⟩
    next hle =>
      rcases List.mem_append.1 h with h | h
      · exact ih (n / 16) (by omega) h
      · exact ⟨n % 16, Nat.mod_lt _ (by decide), List.mem_singleton.1 h⟩

/-- Hexadecimal digits are no braces and no blanks. -/
theorem not_mem_toDigits_sixteen {c : Char} (h : ∀ k < 16, Nat.digitChar k ≠ c) (n : Nat) :
    c ∉ Nat.toDigits 16 n := by
  intro hmem
  obtain ⟨k, hk, hc⟩ := mem_toDigits hmem
  exact h k hk hc.symm

theorem digitChar_inj : ∀ k < 16, ∀ l < 16, Nat.digitChar k = Nat.digitChar l → k = l := by decide

/-- Hexadecimal digits tell their number. -/
theorem toDigits_sixteen_inj {m n : Nat} (h : Nat.toDigits 16 m = Nat.toDigits 16 n) : m = n := by
  have hlast (k : Nat) : (Nat.toDigits 16 k).getLast? = some (Nat.digitChar (k % 16)) := by
    rw [Nat.toDigits_eq_if (by decide)]
    split
    next hlt => rw [Nat.mod_eq_of_lt hlt]; rfl
    · exact List.getLast?_concat
  have hfront (k : Nat) : (Nat.toDigits 16 k).dropLast =
      if k < 16 then [] else Nat.toDigits 16 (k / 16) := by
    rw [Nat.toDigits_eq_if (by decide)]
    split
    · rfl
    · exact List.dropLast_concat
  induction m using Nat.strongRecOn generalizing n with
  | ind m ih =>
    have hunit : m % 16 = n % 16 := by
      have hlasts := congrArg List.getLast? h
      rw [hlast, hlast, Option.some_inj] at hlasts
      exact digitChar_inj _ (Nat.mod_lt _ (by decide)) _ (Nat.mod_lt _ (by decide)) hlasts
    have hfronts := congrArg List.dropLast h
    rw [hfront, hfront] at hfronts
    split at hfronts
    next hm =>
      split at hfronts
      next hn => omega
      next hn => exact absurd hfronts.symm Nat.toDigits_ne_nil
    next hm =>
      split at hfronts
      next hn => exact absurd hfronts Nat.toDigits_ne_nil
      next hn =>
        have hquotient := ih (m / 16) (by omega) hfronts
        omega

/-! ## Characters -/

/-- A way to write one character on a line. -/
inductive Spelling : Char → List Char → Prop
  | plain {c} : shortEscape? c = none → Spelling c [c]
  | short {c letter} : shortEscape? c = some letter → Spelling c ['\\', letter]
  | codePoint {c} : Spelling c (codePointEscape c)

/-- The second text is written with a spelling of each character of the first. -/
inductive Escaped : List Char → List Char → Prop
  | nil : Escaped [] []
  | cons {c raw cs ds} : Spelling c raw → Escaped cs ds → Escaped (c :: cs) (raw ++ ds)

variable {c c' letter x : Char} {raw raw' cs cs' ds ds' : List Char}

theorem spelling_escapeChar (first : Bool) (c : Char) : Spelling c (escapeChar first c) := by
  unfold escapeChar
  split
  next h => exact .short h
  next h =>
    split
    · exact .codePoint
    · exact .plain h

theorem Spelling.ne_nil (h : Spelling c raw) : raw ≠ [] := by
  cases h <;> exact List.cons_ne_nil _ _

theorem shortEscape?_eq_some_iff : shortEscape? c = some letter ↔
    (c, letter) ∈ [('\x00', '0'), ('\t', 't'), ('\r', 'r'), ('\n', 'n'), ('\'', '\''), ('"', '"'),
      ('\\', '\\')] := by
  constructor
  · intro h
    unfold shortEscape? at h
    split at h <;> cases h <;> decide
  · intro h
    simp only [List.mem_cons, List.not_mem_nil, Prod.mk.injEq, or_false] at h
    rcases h with ⟨rfl, rfl⟩ | ⟨rfl, rfl⟩ | ⟨rfl, rfl⟩ | ⟨rfl, rfl⟩ | ⟨rfl, rfl⟩ | ⟨rfl, rfl⟩ |
      ⟨rfl, rfl⟩ <;> rfl

theorem shortEscape?_inj (h : shortEscape? c = some letter) (h' : shortEscape? c' = some letter) :
    c = c' := by
  rw [shortEscape?_eq_some_iff] at h h'
  simp only [List.mem_cons, List.not_mem_nil, Prod.mk.injEq, or_false] at h h'
  rcases h with ⟨rfl, rfl⟩ | ⟨rfl, rfl⟩ | ⟨rfl, rfl⟩ | ⟨rfl, rfl⟩ | ⟨rfl, rfl⟩ | ⟨rfl, rfl⟩ |
    ⟨rfl, rfl⟩ <;> simpa [eq_comm] using h'

/-- A letter behind a backslash does not start a code point. -/
theorem ne_u_of_shortEscape? (h : shortEscape? c = some letter) : letter ≠ 'u' := by
  rintro rfl
  rw [shortEscape?_eq_some_iff] at h
  simp at h

/-- **No spelling is the front of a spelling of another character.** -/
theorem Spelling.append_inj (h : Spelling c raw) (h' : Spelling c' raw')
    (heq : raw ++ ds = raw' ++ ds') : c = c' ∧ ds = ds' := by
  have hbrace (n : Nat) := not_mem_toDigits_sixteen (c := '\x7d') (by decide) n
  have hslash : shortEscape? '\\' = some '\\' := rfl
  cases h with
  | plain hc =>
    cases h' with
    | plain => exact List.cons_eq_cons.1 heq
    | _ =>
      -- a backslash is not written as itself
      obtain ⟨rfl, -⟩ := List.cons_eq_cons.1 heq
      rw [hslash] at hc
      cases hc
  | short hc =>
    cases h' with
    | plain hc' =>
      obtain ⟨rfl, -⟩ := List.cons_eq_cons.1 heq
      rw [hslash] at hc'
      cases hc'
    | short hc' =>
      obtain ⟨-, hrest⟩ := List.cons_eq_cons.1 heq
      obtain ⟨rfl, hds⟩ := List.cons_eq_cons.1 hrest
      exact ⟨shortEscape?_inj hc hc', hds⟩
    | codePoint =>
      obtain ⟨-, hrest⟩ := List.cons_eq_cons.1 heq
      exact absurd (List.cons_eq_cons.1 hrest).1 (ne_u_of_shortEscape? hc)
  | codePoint =>
    cases h' with
    | plain hc' =>
      obtain ⟨rfl, -⟩ := List.cons_eq_cons.1 heq
      rw [hslash] at hc'
      cases hc'
    | short hc' =>
      obtain ⟨-, hrest⟩ := List.cons_eq_cons.1 heq
      exact absurd (List.cons_eq_cons.1 hrest).1.symm (ne_u_of_shortEscape? hc')
    | codePoint =>
      have hcut : Nat.toDigits 16 c.toNat ++ (['\x7d'] ++ ds) =
          Nat.toDigits 16 c'.toNat ++ (['\x7d'] ++ ds') := by
        simpa [codePointEscape] using heq
      obtain ⟨hdigits, hds⟩ := append_cons_inj (hbrace _) (hbrace _) hcut
      exact ⟨Char.toNat_inj.1 (toDigits_sixteen_inj hdigits), hds⟩

/-- Tabs and line feeds are written as something else. -/
theorem Spelling.not_mem (h : Spelling c raw) (hx : x = '\t' ∨ x = '\n') : x ∉ raw := by
  cases h with
  | plain hc =>
    rw [List.mem_singleton]
    rintro rfl
    rcases hx with rfl | rfl <;> cases hc
  | @short letter hc =>
    have hletter : x ≠ letter := by
      rintro rfl
      rw [shortEscape?_eq_some_iff] at hc
      rcases hx with rfl | rfl <;> simp at hc
    have hslash : x ≠ '\\' := by rcases hx with rfl | rfl <;> decide
    simp [hletter, hslash]
  | codePoint =>
    have hdigits : x ∉ Nat.toDigits 16 c.toNat := by
      refine not_mem_toDigits_sixteen ?_ _
      rcases hx with rfl | rfl <;> decide
    rcases hx with rfl | rfl <;> simp [codePointEscape, hdigits]

/-! ## Texts -/

theorem escaped_escapeChars (cs : List Char) : Escaped cs (escapeChars cs) := by
  have hflatMap (cs : List Char) : Escaped cs (cs.flatMap (escapeChar false)) := by
    induction cs with
    | nil => exact .nil
    | cons c cs ih => exact .cons (spelling_escapeChar false c) ih
  cases cs with
  | nil => exact .nil
  | cons c cs => exact .cons (spelling_escapeChar true c) (hflatMap cs)

/-- **A text of spellings has one meaning.** -/
theorem Escaped.unique (h : Escaped cs ds) (h' : Escaped cs' ds) : cs = cs' := by
  induction h generalizing cs' with
  | nil =>
    generalize hds : ([] : List Char) = ds at h'
    cases h' with
    | nil => rfl
    | cons hspelling _ => exact absurd (List.append_eq_nil_iff.1 hds.symm).1 hspelling.ne_nil
  | @cons c raw cs ds hspelling _ ih =>
    generalize hwhole : raw ++ ds = whole at h'
    cases h' with
    | nil => exact absurd (List.append_eq_nil_iff.1 hwhole).1 hspelling.ne_nil
    | cons hspelling' hrest' =>
      obtain ⟨rfl, rfl⟩ := hspelling.append_inj hspelling' hwhole
      rw [ih hrest']

theorem Escaped.not_mem (h : Escaped cs ds) (hx : x = '\t' ∨ x = '\n') : x ∉ ds := by
  induction h with
  | nil => exact List.not_mem_nil
  | cons hspelling _ ih =>
    rw [List.mem_append, not_or]
    exact ⟨hspelling.not_mem hx, ih⟩

end ProductFormula.Text
