/-
  Strings in JSON, read back.

  A character is read from what is written for it (`stringContent?_escaped`), be
  it itself, a short escape, or an escape of four digits, so a string in quotes
  is read as the string whatever stands behind it (`stringContent?_quoted`).
-/
import ProductFormula.Json.Reader

namespace ProductFormula.Json

variable {c : Char}

/-! ## Characters -/

theorem hexDigits_control :
    ∀ n < 0x20, hexDigits n = [Nat.digitChar (n / 16), Nat.digitChar (n % 16)] := by decide

theorem hexDigit?_digitChar : ∀ d < 16, hexDigit? (Nat.digitChar d) = some d := by decide

/-- Four digits name a control character. -/
theorem unicodeEscape?_control (h : c.toNat < 0x20) (rest : List Char) :
    unicodeEscape? ('0' :: '0' :: (hexDigits c.toNat ++ rest)) = some (c, rest) := by
  have hzero : hexDigit? '0' = some 0 := by decide
  have hhigh := hexDigit?_digitChar (c.toNat / 16) (by omega)
  have hlow := hexDigit?_digitChar (c.toNat % 16) (by omega)
  have hunit : hexUnit? ('0' :: '0' :: (hexDigits c.toNat ++ rest)) = some (c.toNat, rest) := by
    have hvalue : c.toNat / 16 * 16 + c.toNat % 16 = c.toNat := by omega
    simp [hexDigits_control _ h, hexUnit?, hzero, hhigh, hlow, hvalue]
  have htrailing : isTrailing c.toNat = false := by
    simp [isTrailing]
    omega
  have hleading : isLeading c.toNat = false := by
    simp [isLeading]
    omega
  simp [unicodeEscape?, hunit, htrailing, hleading]

theorem stringContent?_plain (hquote : c ≠ '"') (hslash : c ≠ '\\') (h : 0x20 ≤ c.toNat)
    (rest : List Char) : stringContent? (c :: rest) =
      (stringContent? rest).map fun (content, left) => (c :: content, left) := by
  rw [stringContent?]
  · rw [if_neg (not_or.2 ⟨hslash, by omega⟩)]
  · exact hquote
  · rintro _ rfl
    exact absurd rfl hslash
  · rintro _ _ rfl
    exact absurd rfl hslash

theorem stringContent?_short {letter : Char} (hletter : letter ≠ 'u')
    (h : shortEscape? letter = some c) (rest : List Char) :
    stringContent? ('\\' :: letter :: rest) =
      (stringContent? rest).map fun (content, left) => (c :: content, left) := by
  rw [stringContent?]
  · rw [h]
    cases stringContent? rest <;> rfl
  · exact hletter

/-- **A character is read from what is written for it.** -/
theorem stringContent?_escaped (c : Char) (rest : List Char) :
    stringContent? (escaped c ++ rest) =
      (stringContent? rest).map fun (content, left) => (c :: content, left) := by
  unfold escaped
  split
  · exact stringContent?_short (by decide) rfl rest
  · exact stringContent?_short (by decide) rfl rest
  · exact stringContent?_short (by decide) rfl rest
  · exact stringContent?_short (by decide) rfl rest
  · exact stringContent?_short (by decide) rfl rest
  · exact stringContent?_short (by decide) rfl rest
  · exact stringContent?_short (by decide) rfl rest
  next hquote hslash _ _ _ _ _ =>
    split
    next hcontrol =>
      have hescape := unicodeEscape?_control hcontrol rest
      simp only [List.cons_append, List.nil_append]
      rw [stringContent?, hescape]
    next hcontrol => exact stringContent?_plain hquote hslash (by omega) rest

theorem stringContent?_flatMap (cs rest : List Char) :
    stringContent? (cs.flatMap escaped ++ '"' :: rest) = some (cs, rest) := by
  induction cs with
  | nil => rw [List.flatMap_nil, List.nil_append, stringContent?]
  | cons c cs ih =>
    rw [List.flatMap_cons, List.append_assoc, stringContent?_escaped, ih]
    rfl

/-- **A string in quotes is read as the string.** -/
theorem stringContent?_quoted (s : String) (rest : List Char) : ∃ tail,
    quoted s ++ rest = '"' :: tail ∧ stringContent? tail = some (s.toList, rest) := by
  refine ⟨s.toList.flatMap escaped ++ '"' :: rest, ?_, stringContent?_flatMap _ _⟩
  simp [quoted]

end ProductFormula.Json
