import ExportAtlas.Proofs.Source.Characters
import ExportAtlas.Proofs.Text.Case
import ExportAtlas.Proofs.Text.Utf8
/-!
# Lowered texts

A text in lower case is its own lower case. The tables give no image that they
map again (`avoids_lowerRuns`), so every character of a lowered text is settled
(`settled_of_mem_lowerChars`), and a text of settled characters is kept as it
is, also if its ASCII letters are put in the other case
(`lowerChars_of_toLower`). Blanks come from blanks only, so what was trimmed is
so in lower case (`IsTrimmed.lowerChars`).
-/

namespace ExportAtlas

namespace Text

/-- A character that lower case leaves as it is, wherever it stands. -/
structure Settled (c : Char) : Prop where
  lowerChar : Case.lowerChar c = [c]
  ne_sigma : c ≠ 'Σ'

/-! ## ASCII letters -/

section Ascii

variable {c : Char}

theorem toLower_of_not_ascii (h : ¬ c.toNat < 0x80) : c.toLower = c := by
  have hcapital : ¬ (c.val ≥ 'A'.val ∧ c.val ≤ 'Z'.val) := by
    rintro ⟨-, hz⟩
    rw [UInt32.le_iff_toNat_le] at hz
    exact h (Nat.lt_of_le_of_lt hz (by decide))
  exact dif_neg hcapital

theorem isBlank_toLower (c : Char) : isBlank c.toLower = isBlank c := by
  by_cases hascii : c.toNat < 0x80
  · exact Source.forall_ascii (P := fun c => isBlank c.toLower = isBlank c) (by decide) hascii
  · rw [toLower_of_not_ascii hascii]

end Ascii

namespace Case

/-! ## Images of a run -/

section Runs

variable {r r' : Run} {runs : List Run} {n k : Nat}

/-- A code point that a run maps. -/
structure Run.Covers (r : Run) (n : Nat) : Prop where
  first : r.first ≤ n
  last : n ≤ r.last
  step : (n - r.first) % r.step = 0

/-- A run gives no image that the other one covers: its images lie before the
other run or behind it, or each time on the code points between. -/
def Run.avoids (r r' : Run) : Bool :=
  Nat.blt r'.last r.target || Nat.blt (r.target + (r.last - r.first)) r'.first ||
    (r.step % 2 == 0 || r.first == r.last) && r'.step % 2 == 0 && (r.target + r'.first) % 2 == 1

/-- The distances in a run are even if its step is. -/
theorem Run.Covers.even (h : r.Covers n) (hstep : r.step % 2 = 0) : (n - r.first) % 2 = 0 :=
  Nat.mod_eq_zero_of_dvd
    (Nat.dvd_trans (Nat.dvd_of_mod_eq_zero hstep) (Nat.dvd_of_mod_eq_zero h.step))

theorem Run.Covers.not_covers_image (hn : r.Covers n) (h : r.avoids r' = true) :
    ¬ r'.Covers (r.target + (n - r.first)) := by
  intro hk
  have hfirst := hn.first
  have hlast := hn.last
  have hfirst' := hk.first
  have hlast' := hk.last
  simp only [Run.avoids, Bool.or_eq_true, Bool.and_eq_true, Nat.blt_eq, beq_iff_eq] at h
  rcases h with (h | h) | ⟨⟨hstep | hone, hstep'⟩, hodd⟩
  · omega
  · omega
  · have heven := hn.even hstep
    have heven' := hk.even hstep'
    omega
  · have heven' := hk.even hstep'
    omega

theorem image?_eq_some (h : image? runs n = some k) :
    ∃ r ∈ runs, r.Covers n ∧ k = r.target + (n - r.first) := by
  obtain ⟨r, hr, rfl⟩ := Option.map_eq_some_iff.mp h
  have hcovers := List.find?_some hr
  simp only [Bool.and_eq_true, decide_eq_true_eq, beq_iff_eq] at hcovers
  exact ⟨r, List.mem_of_find?_eq_some hr, ⟨hcovers.1.1, hcovers.1.2, hcovers.2⟩, rfl⟩

theorem image?_eq_none (h : ∀ r ∈ runs, ¬ r.Covers n) : image? runs n = none := by
  rw [image?, Option.map_eq_none_iff, List.find?_eq_none]
  intro r hr hcovers
  simp only [Bool.and_eq_true, decide_eq_true_eq, beq_iff_eq] at hcovers
  exact h r hr ⟨hcovers.1.1, hcovers.1.2, hcovers.2⟩

/-- **What is in lower case is not mapped again.** -/
theorem avoids_lowerRuns : ∀ r ∈ lowerRuns, ∀ r' ∈ lowerRuns, r.avoids r' = true := by
  have hall : (lowerRuns.all fun r => lowerRuns.all r.avoids) = true := by decide +kernel
  simpa only [List.all_eq_true] using hall

/-- The images of a run lie between two bounds. -/
def Run.Between (r : Run) (low high : Nat) : Prop :=
  low < r.target ∧ r.target + (r.last - r.first) < high

instance (r : Run) (low high : Nat) : Decidable (r.Between low high) :=
  inferInstanceAs (Decidable (_ ∧ _))

/-- The images lie between the blanks, beside the one character that is lowered
to several, and outside the surrogates; those in ASCII are small letters. -/
theorem between_lowerRuns : ∀ r ∈ lowerRuns, r.Between 0x60 0x7B ∨ r.Between 0xA0 0x130 ∨
    r.Between 0x130 0x1680 ∨ r.Between 0x1680 0x2000 ∨ r.Between 0x205F 0x3000 ∨
    r.Between 0x3000 0xD800 ∨ r.Between 0xDFFF 0x110000 := by
  decide +kernel

theorem image?_of_image? (h : image? lowerRuns n = some k) : image? lowerRuns k = none := by
  obtain ⟨r, hr, hcovers, rfl⟩ := image?_eq_some h
  exact image?_eq_none fun r' hr' => hcovers.not_covers_image (avoids_lowerRuns r hr r' hr')

/-- An image is a character, and a small letter if it is in ASCII. -/
theorem image?_bounds (h : image? lowerRuns n = some k) :
    (0x60 < k ∧ k < 0x7B ∨ 0xA0 < k) ∧ k ≠ 0x130 ∧ (k < 0xD800 ∨ 0xDFFF < k ∧ k < 0x110000) ∧
      isBlank (Char.ofNat k) = false := by
  obtain ⟨r, hr, hcovers, rfl⟩ := image?_eq_some h
  have hfirst := hcovers.first
  have hlast := hcovers.last
  have hzone := between_lowerRuns r hr
  simp only [Run.Between] at hzone
  have hchar : r.target + (n - r.first) < 0xD800 ∨
      0xDFFF < r.target + (n - r.first) ∧ r.target + (n - r.first) < 0x110000 := by omega
  refine ⟨by omega, by omega, hchar, ?_⟩
  simp only [isBlank, Utf8.toNat_ofNat hchar, Bool.or_eq_false_iff, Bool.and_eq_false_iff,
    beq_eq_false_iff_ne, decide_eq_false_iff_not]
  omega

end Runs

/-! ## One character -/

variable {c : Char}

theorem lowerChar_of_ascii (h : c.toNat < 0x80) : lowerChar c = [c.toLower] := if_pos h

/-- What a run maps is settled, and no blank. -/
theorem settled_of_image? {n k : Nat} (h : image? lowerRuns n = some k) :
    Settled (Char.ofNat k) ∧ isBlank (Char.ofNat k) = false := by
  obtain ⟨hrange, hother, hchar, hblank⟩ := image?_bounds h
  have hcode := Utf8.toNat_ofNat hchar
  refine ⟨⟨?_, ?_⟩, hblank⟩
  · rcases hrange with ⟨hlow, hhigh⟩ | hbeyond
    · have hsmall : ∀ n < 0x7B, 0x60 < n → (Char.ofNat n).toLower = Char.ofNat n := by decide
      rw [lowerChar_of_ascii (by omega), hsmall k hhigh hlow]
    · have hexpansion : lowerExpansions.lookup k = none := by
        rw [lowerExpansions, List.lookup_cons, beq_eq_false_iff_ne.mpr hother, List.lookup_nil]
      rw [lowerChar, if_neg (by omega), mapped, hcode, image?_of_image? h, hexpansion]
  · intro heq
    have hsigma : image? lowerRuns 'Σ'.toNat ≠ none := by decide +kernel
    rw [← heq, hcode] at hsigma
    exact hsigma (image?_of_image? h)

/-- The dotted capital i alone is lowered to several characters. -/
theorem eq_of_lookup_lowerExpansions {n : Nat} {ns : List Nat}
    (h : lowerExpansions.lookup n = some ns) : ns = [0x69, 0x307] := by
  simp only [lowerExpansions, List.lookup_cons, List.lookup_nil] at h
  split at h
  · exact (Option.some.inj h).symm
  · cases h

/-- **The lower case of a character**: settled characters, at least one, and no
blank unless the character is one. -/
theorem lowerChar_spec (c : Char) : lowerChar c ≠ [] ∧
    ∀ d ∈ lowerChar c, Settled d ∧ (isBlank c = false → isBlank d = false) := by
  by_cases hascii : c.toNat < 0x80
  · have hlower : lowerChar c.toLower = [c.toLower] ∧ c.toLower ≠ 'Σ' :=
      Source.forall_ascii (P := fun c => lowerChar c.toLower = [c.toLower] ∧ c.toLower ≠ 'Σ')
        (by decide) hascii
    rw [lowerChar_of_ascii hascii]
    refine ⟨List.cons_ne_nil _ _, List.forall_mem_singleton.mpr ⟨⟨hlower.1, hlower.2⟩, ?_⟩⟩
    exact fun hblank => (isBlank_toLower c).trans hblank
  have hmapped : lowerChar c = mapped lowerRuns lowerExpansions c := if_neg hascii
  cases himage : image? lowerRuns c.toNat with
  | some k =>
    rw [hmapped, mapped, himage]
    obtain ⟨hsettled, hblank⟩ := settled_of_image? himage
    exact ⟨List.cons_ne_nil _ _, List.forall_mem_singleton.mpr ⟨hsettled, fun _ => hblank⟩⟩
  | none =>
    cases hexpansion : lowerExpansions.lookup c.toNat with
    | some ns =>
      rw [hmapped, mapped, himage, hexpansion, eq_of_lookup_lowerExpansions hexpansion]
      refine ⟨List.cons_ne_nil _ _, ?_⟩
      intro d hd
      simp only [List.map_cons, List.map_nil, List.mem_cons, List.not_mem_nil, or_false] at hd
      rcases hd with rfl | rfl
      · exact ⟨⟨by decide +kernel, by decide⟩, fun _ => by decide⟩
      · exact ⟨⟨by decide +kernel, by decide⟩, fun _ => by decide⟩
    | none =>
      have hself : lowerChar c = [c] := by rw [hmapped, mapped, himage, hexpansion]
      rw [hself]
      refine ⟨List.cons_ne_nil _ _, List.forall_mem_singleton.mpr ⟨⟨hself, ?_⟩, id⟩⟩
      rintro rfl
      exact absurd himage (by decide +kernel)

end Case

/-! ## Settled characters -/

section SettledText

variable {c : Char} {s t : List Char}

/-- A settled character is no capital letter of ASCII. -/
theorem Settled.toLower_eq (h : Settled c) : c.toLower = c := by
  by_cases hascii : c.toNat < 0x80
  · have hlower := h.lowerChar
    rw [Case.lowerChar_of_ascii hascii] at hlower
    exact List.cons.inj hlower |>.1
  · exact toLower_of_not_ascii hascii

/-- A character whose small form is settled is lowered to that. -/
theorem Settled.lowerChar_eq (h : Settled c.toLower) :
    Case.lowerChar c = [c.toLower] ∧ c ≠ 'Σ' := by
  by_cases hascii : c.toNat < 0x80
  · exact ⟨Case.lowerChar_of_ascii hascii, by rintro rfl; exact absurd hascii (by decide)⟩
  · have hself := toLower_of_not_ascii hascii
    rw [hself] at h ⊢
    exact ⟨h.lowerChar, h.ne_sigma⟩

theorem map_toLower_of_settled (h : ∀ c ∈ s, Settled c) : s.map Char.toLower = s := by
  conv => rhs; rw [← List.map_id s]
  exact List.map_congr_left fun c hc => (h c hc).toLower_eq

theorem lowerAfter_of_settled_toLower (h : ∀ c ∈ t, Settled c.toLower) (before : List Char) :
    Case.lowerAfter before t = t.map Char.toLower := by
  induction t generalizing before with
  | nil => rfl
  | cons c t ih =>
    rw [List.forall_mem_cons] at h
    obtain ⟨hlower, hsigma⟩ := h.1.lowerChar_eq
    rw [Case.lowerAfter, if_neg hsigma, hlower, ih h.2]
    rfl

/-- **A settled text is the lower case of itself**, and of every text that
differs from it in the case of ASCII letters. -/
theorem lowerChars_of_toLower (hs : ∀ c ∈ s, Settled c)
    (ht : t.map Char.toLower = s.map Char.toLower) : lowerChars t = s := by
  rw [map_toLower_of_settled hs] at ht
  have hsettled : ∀ c ∈ t, Settled c.toLower := by
    intro c hc
    refine hs _ ?_
    rw [← ht]
    exact List.mem_map_of_mem hc
  rw [lowerChars, lowerAfter_of_settled_toLower hsettled, ht]

theorem IsTrimmed.of_toLower (hs : IsTrimmed s) (ht : t.map Char.toLower = s.map Char.toLower) :
    IsTrimmed t where
  ne_nil := by
    rintro rfl
    exact hs.ne_nil (List.map_eq_nil_iff.mp ht.symm)
  head c hc := by
    have hmap : s.head?.map Char.toLower = some c.toLower := by
      rw [← List.head?_map, ← ht, List.head?_map, Option.mem_def.mp hc, Option.map_some]
    obtain ⟨d, hd, heq⟩ := Option.map_eq_some_iff.mp hmap
    rw [← isBlank_toLower, ← heq, isBlank_toLower]
    exact hs.head d hd
  last c hc := by
    have hmap : s.getLast?.map Char.toLower = some c.toLower := by
      rw [← List.getLast?_map, ← ht, List.getLast?_map, Option.mem_def.mp hc, Option.map_some]
    obtain ⟨d, hd, heq⟩ := Option.map_eq_some_iff.mp hmap
    rw [← isBlank_toLower, ← heq, isBlank_toLower]
    exact hs.last d hd

end SettledText

/-! ## Texts -/

section Texts

variable {s : List Char}

/-- The first character of a text gives the first ones of its lower case. -/
theorem exists_lowerAfter_cons (before : List Char) (c : Char) (s : List Char) :
    ∃ piece, Case.lowerAfter before (c :: s) = piece ++ Case.lowerAfter (c :: before) s ∧
      piece ≠ [] ∧ ∀ d ∈ piece, Settled d ∧ (isBlank c = false → isBlank d = false) := by
  by_cases hsigma : c = 'Σ'
  · refine ⟨[if Case.endsWord before s then 'ς' else 'σ'], by rw [Case.lowerAfter, if_pos hsigma],
      List.cons_ne_nil _ _, List.forall_mem_singleton.mpr ?_⟩
    split
    · exact ⟨⟨by decide +kernel, by decide⟩, fun _ => by decide⟩
    · exact ⟨⟨by decide +kernel, by decide⟩, fun _ => by decide⟩
  · exact ⟨Case.lowerChar c, by rw [Case.lowerAfter, if_neg hsigma], Case.lowerChar_spec c⟩

theorem settled_of_mem_lowerAfter {before : List Char} :
    ∀ d ∈ Case.lowerAfter before s, Settled d := by
  induction s generalizing before with
  | nil => exact nofun
  | cons c s ih =>
    obtain ⟨piece, heq, -, hpiece⟩ := exists_lowerAfter_cons before c s
    intro d hd
    rw [heq, List.mem_append] at hd
    rcases hd with hd | hd
    · exact (hpiece d hd).1
    · exact ih d hd

/-- **A text in lower case is settled.** -/
theorem settled_of_mem_lowerChars : ∀ d ∈ lowerChars s, Settled d := settled_of_mem_lowerAfter

theorem lowerAfter_eq_nil_iff {before : List Char} : Case.lowerAfter before s = [] ↔ s = [] := by
  cases s with
  | nil => exact iff_of_true rfl rfl
  | cons c s =>
    obtain ⟨piece, heq, hne, -⟩ := exists_lowerAfter_cons before c s
    rw [heq]
    exact iff_of_false (fun h => hne (List.append_eq_nil_iff.mp h).1) (List.cons_ne_nil c s)

theorem not_isBlank_of_head?_lowerAfter {before : List Char}
    (h : ∀ c ∈ s.head?, isBlank c = false) :
    ∀ d ∈ (Case.lowerAfter before s).head?, isBlank d = false := by
  cases s with
  | nil => exact nofun
  | cons c s =>
    obtain ⟨piece, heq, hne, hpiece⟩ := exists_lowerAfter_cons before c s
    intro d hd
    rw [heq, List.head?_append_of_ne_nil _ hne] at hd
    exact (hpiece d (List.mem_of_mem_head? hd)).2 (h c rfl)

theorem not_isBlank_of_getLast?_lowerAfter {before : List Char}
    (h : ∀ c ∈ s.getLast?, isBlank c = false) :
    ∀ d ∈ (Case.lowerAfter before s).getLast?, isBlank d = false := by
  induction s generalizing before with
  | nil => exact nofun
  | cons c s ih =>
    obtain ⟨piece, heq, -, hpiece⟩ := exists_lowerAfter_cons before c s
    intro d hd
    rw [heq] at hd
    by_cases hs : s = []
    · subst hs
      rw [Case.lowerAfter, List.append_nil] at hd
      exact (hpiece d (List.mem_of_mem_getLast? hd)).2 (h c rfl)
    · rw [List.getLast?_append_of_ne_nil _ (mt lowerAfter_eq_nil_iff.mp hs)] at hd
      refine ih (fun last hlast => h last ?_) d hd
      rwa [List.getLast?_cons_of_ne_nil hs]

/-- **What is trimmed is so in lower case.** -/
theorem IsTrimmed.lowerChars (h : IsTrimmed s) : IsTrimmed (Text.lowerChars s) where
  ne_nil := mt lowerAfter_eq_nil_iff.mp h.ne_nil
  head := not_isBlank_of_head?_lowerAfter h.head
  last := not_isBlank_of_getLast?_lowerAfter h.last

end Texts

end Text

end ExportAtlas
