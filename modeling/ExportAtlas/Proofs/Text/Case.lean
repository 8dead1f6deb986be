import ExportAtlas.Proofs.Text.Pieces
import ExportAtlas.Text.Case
/-!
# Lower case, part by part

The lower case of a text is made character by character, but for the final
sigma: whether a capital sigma takes that form depends on what stands around
it. With the final sigmas written as any others (`plainSigmas`) the lower case
of a text is that of its parts (`plainSigmas_lowerChars_append`), and a word
without sigmas does not see the difference (`infix_plainSigmas`). So whether
such a word stands in the lower case of a text can be told part by part
(`contains_lower_eq`).
-/

namespace ExportAtlas

namespace Text

variable {a b s w : List Char}

/-- A character that is its own lower case stays, wherever it stands. -/
theorem mem_lowerAfter {c : Char} (hlower : Case.lowerChar c = [c]) (hsigma : c ≠ 'Σ')
    {s : List Char} (h : c ∈ s) (before : List Char) : c ∈ Case.lowerAfter before s := by
  induction s generalizing before with
  | nil => cases h
  | cons d s ih =>
    rw [Case.lowerAfter, List.mem_append]
    rcases List.mem_cons.mp h with rfl | h
    · rw [if_neg hsigma, hlower]
      exact .inl (List.mem_singleton_self c)
    · exact .inr (ih h (d :: before))

theorem dot_mem_lower {s : String} (h : '.' ∈ s.toList) : '.' ∈ (lower s).toList := by
  rw [lower, String.toList_ofList]
  exact mem_lowerAfter (by decide) (by decide) h []

/-! ## Sigmas -/

/-- A text with its final sigmas written as any others. -/
def plainSigmas (s : List Char) : List Char := s.map fun c => if c = 'ς' then 'σ' else c

/-- **But for its final sigmas a text is lowered character by character.** -/
theorem plainSigmas_lowerAfter (before s : List Char) :
    plainSigmas (Case.lowerAfter before s) =
      s.flatMap fun c => plainSigmas (if c = 'Σ' then ['σ'] else Case.lowerChar c) := by
  induction s generalizing before with
  | nil => rfl
  | cons c s ih =>
    rw [Case.lowerAfter, plainSigmas, List.map_append, List.flatMap_cons, ← ih (c :: before)]
    refine congrArg (· ++ _) ?_
    by_cases hc : c = 'Σ'
    · rw [if_pos hc, if_pos hc]
      cases Case.endsWord before s <;> rfl
    · rw [if_neg hc, if_neg hc]
      rfl

theorem plainSigmas_lowerChars_append (a b : List Char) :
    plainSigmas (lowerChars (a ++ b)) = plainSigmas (lowerChars a) ++ plainSigmas (lowerChars b) := by
  simp only [lowerChars, plainSigmas_lowerAfter, List.flatMap_append]

/-- A word has no sigma of either form. -/
structure FreeOfSigma (w : List Char) : Prop where
  medial : 'σ' ∉ w
  final : 'ς' ∉ w

theorem plainSigmas_eq_iff (hw : FreeOfSigma w) : plainSigmas s = w ↔ s = w := by
  constructor
  · intro h
    have hsame : ∀ c ∈ s, (if c = 'ς' then 'σ' else c) = id c := by
      intro c hc
      refine if_neg fun hfinal => hw.medial ?_
      rw [← h]
      exact List.mem_map.mpr ⟨c, hc, if_pos hfinal⟩
    rw [← h, plainSigmas, List.map_congr_left hsame, List.map_id]
  · rintro rfl
    have hsame : ∀ c ∈ s, (if c = 'ς' then 'σ' else c) = id c := by
      intro c hc
      refine if_neg fun hfinal => hw.final ?_
      rwa [← hfinal]
    rw [plainSigmas, List.map_congr_left hsame, List.map_id]

/-- **A word without sigmas stands in a text** whichever way its sigmas are
written. -/
theorem infix_plainSigmas (hw : FreeOfSigma w) : w <:+: plainSigmas s ↔ w <:+: s := by
  rw [plainSigmas, List.infix_map_iff]
  constructor
  · rintro ⟨u, hu, heq⟩
    exact (plainSigmas_eq_iff hw).mp heq.symm ▸ hu
  · intro h
    exact ⟨w, h, ((plainSigmas_eq_iff hw).mpr rfl).symm⟩

/-! ## Parts between slashes -/

/-- **A word stands in the lower case of two parts** if it stands in that of
one of them, a slash being between them. -/
theorem infix_lowerChars_append_slash (hw : FreeOfSigma w) (hslash : '/' ∉ w) :
    w <:+: lowerChars (a ++ '/' :: b) ↔ w <:+: lowerChars a ∨ w <:+: lowerChars b := by
  have hcons : plainSigmas (lowerChars ('/' :: b)) = '/' :: plainSigmas (lowerChars b) := by
    rw [← List.singleton_append, plainSigmas_lowerChars_append]
    rfl
  rw [← infix_plainSigmas hw, plainSigmas_lowerChars_append, hcons, infix_append_cons_iff hslash,
    infix_plainSigmas hw, infix_plainSigmas hw]

variable {word : String}

theorem contains_lower_iff {text : String} :
    contains (lower text) word = true ↔ word.toList <:+: lowerChars text.toList := by
  rw [contains, occursIn_iff, lower, String.toList_ofList]

/-- A text is what stands before its first slash, and what stands behind. -/
theorem cutOnce_cases (text : String) :
    '/' ∉ text.toList ∧ cutOnce '/' text = (text, none) ∨
      ∃ before rest, text.toList = before ++ '/' :: rest ∧
        cutOnce '/' text = (String.ofList before, some (String.ofList rest)) := by
  by_cases hslash : '/' ∈ text.toList
  · obtain ⟨before, rest, htext, hbefore⟩ := List.eq_append_cons_of_mem hslash
    refine .inr ⟨before, rest, htext, ?_⟩
    rw [cutOnce, htext, cutAt_append_cons hbefore]
    rfl
  · refine .inl ⟨hslash, ?_⟩
    rw [cutOnce, cutAt_of_notMem hslash]
    exact congrArg (·, none) String.ofList_toList

/-- **A word stands in the lower case of a text** if it stands in that of what is
before the first slash, or of what is behind it. -/
theorem contains_lower_eq (hw : FreeOfSigma word.toList) (hslash : '/' ∉ word.toList)
    (text : String) : contains (lower text) word =
      (contains (lower (cutOnce '/' text).1) word ||
        (cutOnce '/' text).2.any fun part => contains (lower part) word) := by
  rcases cutOnce_cases text with ⟨-, hcut⟩ | ⟨before, rest, htext, hcut⟩
  · rw [hcut, Option.any_none, Bool.or_false]
  · rw [hcut, Option.any_some, Bool.eq_iff_iff, Bool.or_eq_true, contains_lower_iff,
      contains_lower_iff, contains_lower_iff, htext, String.toList_ofList, String.toList_ofList]
    exact infix_lowerChars_append_slash hw hslash

end Text

end ExportAtlas
