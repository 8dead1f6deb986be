import ExportAtlas.Source.Scan
/-!
# The characters of names

What holds of every ASCII character is decided by going through them
(`forall_ascii`). The characters of a plain name are in ASCII, may go on a
name, and are neither blanks nor punctuation; the characters of any name are
not the blanks that comments leave.
-/

namespace ExportAtlas

namespace Source

/-- A character of a name in ASCII. -/
def isPlainPart (c : Char) : Bool := c.isAlphanum || c == '_' || c == '$'

/-- What holds of the first 128 characters holds of every one in ASCII. -/
theorem forall_ascii {P : Char → Prop} (h : ∀ n < 128, P (Char.ofNat n)) {c : Char}
    (hc : c.toNat < 128) : P c := by
  have := h c.toNat hc
  rwa [Char.ofNat_toNat] at this

theorem toNat_lt_of_isPlainPart {c : Char} (h : isPlainPart c = true) : c.toNat < 128 := by
  have hranges : isPlainPart c = ((decide (65 ≤ c.val ∧ c.val ≤ 90) ||
      97 ≤ c.val && c.val ≤ 122 || 48 ≤ c.val && c.val ≤ 57) || c == '_' || c == '$') := rfl
  simp only [hranges, Bool.or_eq_true, Bool.and_eq_true, decide_eq_true_eq, beq_iff_eq,
    UInt32.le_iff_toNat_le] at h
  rcases h with (((h | h) | h) | rfl) | rfl
  · exact Nat.lt_of_le_of_lt h.2 (by decide)
  · exact Nat.lt_of_le_of_lt h.2 (by decide)
  · exact Nat.lt_of_le_of_lt h.2 (by decide)
  · decide
  · decide

theorem isNamePart_of_isPlainPart {c : Char} (h : isPlainPart c = true) :
    isNamePart c = true :=
  forall_ascii (P := fun c => isPlainPart c = true → isNamePart c = true) (by decide)
    (toNat_lt_of_isPlainPart h) h

theorem isBlank_of_isPlainPart {c : Char} (h : isPlainPart c = true) : Text.isBlank c = false :=
  forall_ascii (P := fun c => isPlainPart c = true → Text.isBlank c = false) (by decide)
    (toNat_lt_of_isPlainPart h) h

/-- No blank goes on a name, in ASCII or beyond. -/
theorem isNamePart_of_isBlank {c : Char} (h : Text.isBlank c = true) : isNamePart c = false := by
  have hcode : c.toNat ∈ [0x20, 0x85, 0xA0, 0x1680, 0x2028, 0x2029, 0x202F, 0x205F, 0x3000] ++
      List.range' 0x9 5 ++ List.range' 0x2000 11 := by
    simp only [Text.isBlank, Bool.or_eq_true, Bool.and_eq_true, beq_iff_eq, decide_eq_true_eq] at h
    simp only [List.mem_append, List.mem_cons, List.not_mem_nil, or_false, List.mem_range'_1]
    omega
  have hblanks : ∀ n ∈ [0x20, 0x85, 0xA0, 0x1680, 0x2028, 0x2029, 0x202F, 0x205F, 0x3000] ++
      List.range' 0x9 5 ++ List.range' 0x2000 11, isNamePart (Char.ofNat n) = false := by
    decide +kernel
  rw [← Char.ofNat_toNat c]
  exact hblanks c.toNat hcode

/-- A character of a name is none of those that punctuate a statement. -/
theorem ne_of_isPlainPart {c d : Char} (h : isPlainPart c = true)
    (hd : isPlainPart d = false) : c ≠ d := by
  rintro rfl
  rw [h] at hd
  cases hd

/-- No character of a name is one of the blanks that a comment leaves. -/
theorem ne_blank_of_isNamePart {c : Char} (h : isNamePart c = true) : c ≠ ' ' ∧ c ≠ '\n' := by
  constructor
  · rintro rfl
    cases h
  · rintro rfl
    cases h

theorem isPlainPart_of_isNameStart {c : Char} (h : isNameStart c = true) :
    isPlainPart c = true := by
  simp only [isNameStart, Bool.or_eq_true] at h
  rw [isPlainPart, show c.isAlphanum = (c.isAlpha || c.isDigit) from rfl]
  simp only [Bool.or_eq_true]
  rcases h with (h | h) | h
  · exact .inl (.inl (.inl h))
  · exact .inl (.inr h)
  · exact .inr h

end Source

end ExportAtlas
