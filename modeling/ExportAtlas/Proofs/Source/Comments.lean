import Mathlib.Data.List.Infix
import ExportAtlas.Source.Comment
/-!
# What lies in comments

`marked` follows the regions of a source text and says of each character
whether it lies in a comment. Blanking is read off it: the characters in
comments are blanked, and all others stand (`blankComments_eq`). So what
holds no blank and stands in the blanked text, stands in the source outside
comments (`infix_marked`).
-/

namespace ExportAtlas

namespace Source

/-- The characters of a text, each with whether it lies in a comment, when
the start of the text lies in a region. The marks that open and close a
comment lie in it, the newline that ends a line comment does not. -/
def marked : Region → List Char → List (Char × Bool)
  | _, [] => []
  | .code, '/' :: '/' :: rest => ('/', true) :: ('/', true) :: marked .lineComment rest
  | .code, '/' :: '*' :: rest => ('/', true) :: ('*', true) :: marked .blockComment rest
  | .code, c :: rest => (c, false) :: marked (if isQuote c then .string c else .code) rest
  | .string quote, '\\' :: c :: rest =>
    ('\\', false) :: (c, false) :: marked (.string quote) rest
  | .string quote, c :: rest =>
    (c, false) :: marked (if endsString quote c then .code else .string quote) rest
  | .lineComment, c :: rest =>
    if c = '\n' then (c, false) :: marked .code rest else (c, true) :: marked .lineComment rest
  | .blockComment, '*' :: '/' :: rest => ('*', true) :: ('/', true) :: marked .code rest
  | .blockComment, c :: rest => (c, true) :: marked .blockComment rest

/-- What blanking makes of a marked character. -/
def shown (m : Char × Bool) : List Char := if m.2 then blanked m.1 else [m.1]

section Marked

variable {r : Region} {s : List Char}

/-- The marks take nothing from the text. -/
theorem map_fst_marked (r : Region) (s : List Char) : (marked r s).map Prod.fst = s := by
  fun_induction marked r s <;> simp_all

/-- **Blanking blanks what is marked**, and nothing else. -/
theorem blankFrom_eq_flatMap (r : Region) (s : List Char) :
    blankFrom r s = (marked r s).flatMap shown := by
  fun_induction marked r s with
  | case1 r => rw [blankFrom, List.flatMap_nil]
  | case2 rest ih => rw [blankFrom, ih]; rfl
  | case3 rest ih => rw [blankFrom, ih]; rfl
  | case4 c rest hline hblock ih =>
    rw [blankFrom, ih]
    · rfl
    · exact hline
    · exact hblock
  | case5 quote c rest ih => rw [blankFrom, ih]; rfl
  | case6 quote c rest hescape ih =>
    rw [blankFrom, ih]
    · rfl
    · exact hescape
  | case7 rest ih => rw [blankFrom, if_pos rfl, ih]; rfl
  | case8 c rest hc ih => rw [blankFrom, if_neg hc, ih]; rfl
  | case9 rest ih => rw [blankFrom, ih]; rfl
  | case10 c rest hend ih =>
    rw [blankFrom, ih]
    · rfl
    · exact hend

theorem mentionsComment_tail {c : Char} (h : mentionsComment (c :: s) = false) :
    mentionsComment s = false := by
  rw [mentionsComment.eq_def] at h
  split at h
  · cases h
  · cases h
  · rename_i hcons
    rwa [(List.cons.inj hcons).2]
  · rename_i hnil
    cases hnil

/-- Where no comment opens, nothing is blanked: the text lies in code and
strings throughout. -/
theorem blankFrom_of_not_mentionsComment (h : mentionsComment s = false)
    (hr : r ≠ .lineComment ∧ r ≠ .blockComment) : blankFrom r s = s := by
  fun_induction blankFrom r s with
  | case1 r => rfl
  | case2 rest ih => cases h
  | case3 rest ih => cases h
  | case4 c rest hline hblock ih =>
    rw [ih (mentionsComment_tail h)]
    split <;> exact ⟨nofun, nofun⟩
  | case5 quote c rest ih => rw [ih (mentionsComment_tail (mentionsComment_tail h)) hr]
  | case6 quote c rest hescape ih =>
    rw [ih (mentionsComment_tail h)]
    split <;> exact ⟨nofun, nofun⟩
  | case7 rest ih => exact absurd rfl hr.1
  | case8 c rest hc ih => exact absurd rfl hr.1
  | case9 rest ih => exact absurd rfl hr.2
  | case10 c rest hend ih => exact absurd rfl hr.2

/-- Looking for a comment first changes nothing. -/
theorem blankComments_eq (s : List Char) : blankComments s = (marked .code s).flatMap shown := by
  rw [← blankFrom_eq_flatMap, blankComments]
  split
  · rfl
  · rename_i h
    exact (blankFrom_of_not_mentionsComment (by simpa using h) ⟨by decide, by decide⟩).symm

end Marked

/-! ## Texts without blanks -/

section Infix

variable {x a b : List Char}

/-- A blanked character leaves blanks. -/
theorem mem_blanked {c d : Char} (h : d ∈ blanked c) : d = ' ' ∨ d = '\n' := by
  rw [blanked] at h
  split at h
  · exact .inr (List.mem_singleton.mp h)
  · exact .inl (List.mem_replicate.mp h).2

theorem blanked_ne_nil (c : Char) : blanked c ≠ [] := by
  rw [blanked]
  split
  · exact List.cons_ne_nil _ _
  · intro h
    have hlen := congrArg List.length h
    have hpos := c.utf8Size_pos
    rw [List.length_replicate, List.length_nil] at hlen
    omega

/-- A text without blanks that stands at the front of a blanked one stands at
the front of the source, outside comments. -/
theorem isPrefix_marked {m : List (Char × Bool)} (hx : ∀ c ∈ x, c ≠ ' ' ∧ c ≠ '\n')
    (h : x <+: m.flatMap shown) : x.map (·, false) <+: m := by
  induction m generalizing x with
  | nil =>
    rw [List.flatMap_nil, List.prefix_nil] at h
    rw [h]
    exact List.nil_prefix
  | cons d m ih =>
    obtain ⟨c, inComment⟩ := d
    cases x with
    | nil => exact List.nil_prefix
    | cons e x =>
      rw [List.flatMap_cons] at h
      cases inComment with
      | false =>
        have hcons : e :: x <+: c :: m.flatMap shown := h
        obtain ⟨rfl, htail⟩ := List.cons_prefix_cons.mp hcons
        exact List.cons_prefix_cons.mpr
          ⟨rfl, ih (fun d hd => hx d (List.mem_cons_of_mem e hd)) htail⟩
      | true =>
        -- the front of a comment is a blank
        obtain ⟨k, ks, hks⟩ := List.exists_cons_of_ne_nil (blanked_ne_nil c)
        have hfront : e :: x <+: k :: (ks ++ m.flatMap shown) := by
          rw [← List.cons_append, ← hks]
          exact h
        have hblank := mem_blanked (c := c) (d := k) (by rw [hks]; exact List.mem_cons_self ..)
        have hne := hx e (List.mem_cons_self ..)
        rw [(List.cons_prefix_cons.mp hfront).1] at hne
        rcases hblank with rfl | rfl
        · exact absurd rfl hne.1
        · exact absurd rfl hne.2

/-- Blanks are no part of a text without blanks. -/
theorem infix_of_infix_append (hne : x ≠ []) (hx : ∀ c ∈ x, c ≠ ' ' ∧ c ≠ '\n')
    (ha : ∀ c ∈ a, c = ' ' ∨ c = '\n') (h : x <:+: a ++ b) : x <:+: b := by
  induction a with
  | nil => exact h
  | cons k a ih =>
    rw [List.cons_append, List.infix_cons_iff] at h
    rcases h with h | h
    · obtain ⟨e, x, rfl⟩ := List.exists_cons_of_ne_nil hne
      have hne := hx e (List.mem_cons_self ..)
      rw [(List.cons_prefix_cons.mp h).1] at hne
      rcases ha k (List.mem_cons_self ..) with rfl | rfl
      · exact absurd rfl hne.1
      · exact absurd rfl hne.2
    · exact ih (fun c hc => ha c (List.mem_cons_of_mem k hc)) h

/-- **What holds no blank and stands in a blanked text** stands in the source
outside comments. -/
theorem infix_marked {m : List (Char × Bool)} (hne : x ≠ []) (hx : ∀ c ∈ x, c ≠ ' ' ∧ c ≠ '\n')
    (h : x <:+: m.flatMap shown) : x.map (·, false) <:+: m := by
  induction m with
  | nil =>
    rw [List.flatMap_nil, List.infix_nil] at h
    exact absurd h hne
  | cons d m ih =>
    obtain ⟨c, inComment⟩ := d
    have hlater : x <:+: m.flatMap shown → x.map (·, false) <:+: (c, inComment) :: m :=
      fun hm => (ih hm).trans (List.suffix_cons _ m).isInfix
    cases inComment with
    | false =>
      have hcons : x <:+: c :: m.flatMap shown := h
      rcases List.infix_cons_iff.mp hcons with hfront | hm
      · exact (isPrefix_marked (m := (c, false) :: m) hx hfront).isInfix
      · exact hlater hm
    | true =>
      -- a comment is blanks, which the text cannot reach into
      exact hlater (infix_of_infix_append hne hx (fun d => mem_blanked) h)

end Infix

end Source

end ExportAtlas
