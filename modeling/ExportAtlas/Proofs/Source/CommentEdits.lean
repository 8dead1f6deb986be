import ExportAtlas.Proofs.Source.Spacing
/-!
# Edited comments

What a comment says does not bear on the exports
(`extract_eq_of_comment_edited`). Where code goes on up to a comment
(`regionAfter`), the comment is blanked to a gap as wide as its text, and
everything around it is blanked as before; of the gap only its width changes,
and that is not seen (`exportsOf_declarationsOf_narrowed`).
-/

namespace ExportAtlas

namespace Source

/-- The region behind a text, when the start of the text lies in a region: the
last of those that `blankFrom` goes through. -/
def regionAfter : Region → List Char → Region
  | r, [] => r
  | .code, '/' :: '/' :: rest => regionAfter .lineComment rest
  | .code, '/' :: '*' :: rest => regionAfter .blockComment rest
  | .code, c :: rest => regionAfter (if isQuote c then .string c else .code) rest
  | .string quote, '\\' :: _ :: rest => regionAfter (.string quote) rest
  | .string quote, c :: rest =>
    regionAfter (if endsString quote c then .code else .string quote) rest
  | .lineComment, c :: rest => regionAfter (if c = '\n' then .code else .lineComment) rest
  | .blockComment, '*' :: '/' :: rest => regionAfter .code rest
  | .blockComment, _ :: rest => regionAfter .blockComment rest

/-- The region is there in a text: a string is opened by a quote. -/
def Region.IsProper : Region → Prop
  | .string quote => isQuote quote = true
  | _ => True

/-- A text that can stand in a block comment of one line. -/
def IsBlockBody (body : List Char) : Prop := ¬ "*/".toList <:+: body ∧ '\n' ∉ body

instance (body : List Char) : Decidable (IsBlockBody body) :=
  inferInstanceAs (Decidable (_ ∧ _))

section Edits

variable {r r' : Region} {a a' b c c' : List Char}

/-! ## Up to the comment -/

/-- A text is blanked by itself and code goes on behind it, but for a slash at
its end, which may open a comment with what follows. -/
def BlankedAlone (r : Region) (a : List Char) : Prop :=
  ∃ before slash, (slash = [] ∨ slash = ['/']) ∧
    ∀ s, blankFrom r (a ++ s) = before ++ blankFrom .code (slash ++ s)

/-- One step of blanking goes in front of what the rest is blanked to. -/
theorem BlankedAlone.of_step (h : BlankedAlone r' a') (first : List Char)
    (hfirst : ∀ s, blankFrom r (a ++ s) = first ++ blankFrom r' (a' ++ s)) :
    BlankedAlone r a := by
  obtain ⟨before, slash, hslash, hrest⟩ := h
  exact ⟨first ++ before, slash, hslash, fun s => by rw [hfirst, hrest, List.append_assoc]⟩

/-- A character of the rest is there whatever follows, unless the rest is
empty. -/
theorem exists_cons_of_append_eq_cons {k : Char} {s t : List Char} (ha : a ≠ [])
    (h : a ++ s = k :: t) : ∃ t', a = k :: t' := by
  obtain ⟨d, a, rfl⟩ := List.exists_cons_of_ne_nil ha
  exact ⟨a, by rw [(List.cons.inj h).1]⟩

/-- **A text behind which code goes on is blanked alone.** -/
theorem blankedAlone (hr : r.IsProper) (h : regionAfter r a = .code) : BlankedAlone r a := by
  fun_induction regionAfter r a with
  | case1 r => exact ⟨[], [], .inl rfl, fun s => by rw [h]; rfl⟩
  | case2 rest ih =>
    refine (ih trivial h).of_step [' ', ' '] fun s => ?_
    rw [List.cons_append, List.cons_append, blankFrom]
    rfl
  | case3 rest ih =>
    refine (ih trivial h).of_step [' ', ' '] fun s => ?_
    rw [List.cons_append, List.cons_append, blankFrom]
    rfl
  | case4 d rest hline hblock ih =>
    have hr' : (if isQuote d then Region.string d else .code).IsProper := by
      split
      · assumption
      · trivial
    by_cases hrest : rest = [] ∧ d = '/'
    · obtain ⟨rfl, rfl⟩ := hrest
      exact ⟨[], ['/'], .inr rfl, fun s => rfl⟩
    · refine (ih hr' h).of_step [d] fun s => ?_
      rw [List.cons_append, blankFrom]
      · rfl
      · rintro t hd hcons
        obtain ⟨t', ht'⟩ := exists_cons_of_append_eq_cons (fun hnil => hrest ⟨hnil, hd⟩) hcons
        exact hline t' hd ht'
      · rintro t hd hcons
        obtain ⟨t', ht'⟩ := exists_cons_of_append_eq_cons (fun hnil => hrest ⟨hnil, hd⟩) hcons
        exact hblock t' hd ht'
  | case5 quote d rest ih =>
    refine (ih hr h).of_step ['\\', d] fun s => ?_
    rw [List.cons_append, List.cons_append, blankFrom]
    rfl
  | case6 quote d rest hescape ih =>
    have hr' : (if endsString quote d then Region.code else .string quote).IsProper := by
      split
      · trivial
      · exact hr
    refine (ih hr' h).of_step [d] fun s => ?_
    rw [List.cons_append, blankFrom]
    · rfl
    · rintro e t rfl hcons
      by_cases hnil : rest = []
      · -- a backslash ends no string
        subst hnil
        have hslash : endsString quote '\\' = true := by
          by_contra hends
          rw [if_neg hends, regionAfter] at h
          cases h
        rw [endsString, Bool.or_eq_true] at hslash
        rcases hslash with hslash | hslash
        · rw [← beq_iff_eq.mp hslash] at hr
          cases hr
        · cases hslash
      · obtain ⟨t', ht'⟩ := exists_cons_of_append_eq_cons hnil hcons
        exact hescape e t' rfl ht'
  | case7 d rest ih =>
    by_cases hd : d = '\n'
    · rw [if_pos hd] at ih h
      refine (ih trivial h).of_step [d] fun s => ?_
      rw [List.cons_append, blankFrom, if_pos hd]
      rfl
    · rw [if_neg hd] at ih h
      refine (ih trivial h).of_step (blanked d) fun s => ?_
      rw [List.cons_append, blankFrom, if_neg hd]
  | case8 rest ih =>
    refine (ih trivial h).of_step [' ', ' '] fun s => ?_
    rw [List.cons_append, List.cons_append, blankFrom]
    rfl
  | case9 d rest hend ih =>
    refine (ih trivial h).of_step (blanked d) fun s => ?_
    rw [List.cons_append, blankFrom]
    rintro t hd hcons
    have hnil : rest ≠ [] := by
      rintro rfl
      cases h
    obtain ⟨t', ht'⟩ := exists_cons_of_append_eq_cons hnil hcons
    exact hend t' hd ht'

/-! ## The comment -/

/-- The text of a line comment is blanked to spaces. -/
theorem exists_blankFrom_lineComment (hc : '\n' ∉ c) (s : List Char) :
    ∃ n, blankFrom .lineComment (c ++ s) = List.replicate n ' ' ++ blankFrom .lineComment s := by
  induction c with
  | nil => exact ⟨0, rfl⟩
  | cons d c ih =>
    rw [List.mem_cons, not_or] at hc
    obtain ⟨n, hn⟩ := ih hc.2
    refine ⟨d.utf8Size + n, ?_⟩
    rw [List.cons_append, blankFrom, if_neg (Ne.symm hc.1), hn, blanked, if_neg (Ne.symm hc.1),
      ← List.append_assoc, List.replicate_append_replicate]

/-- And so is that of a block comment, up to its end. -/
theorem exists_blankFrom_blockComment (hc : IsBlockBody c) (s : List Char) :
    ∃ n, blankFrom .blockComment (c ++ '*' :: '/' :: s) =
      List.replicate n ' ' ++ blankFrom .code s := by
  induction c with
  | nil => exact ⟨2, rfl⟩
  | cons d c ih =>
    obtain ⟨hend, hline⟩ := hc
    rw [List.mem_cons, not_or] at hline
    obtain ⟨n, hn⟩ := ih ⟨fun h => hend (h.trans (List.suffix_cons d c).isInfix), hline.2⟩
    refine ⟨d.utf8Size + n, ?_⟩
    rw [List.cons_append, blankFrom, hn, blanked, if_neg (Ne.symm hline.1), ← List.append_assoc,
      List.replicate_append_replicate]
    -- the comment does not end early
    rintro t rfl hcons
    cases c with
    | nil => cases hcons
    | cons e c =>
      rw [(List.cons.inj hcons).1] at hend
      exact hend (List.prefix_append ['*', '/'] c).isInfix

/-- Blanked, a source text with a comment in it is the same on both sides of a
gap, whatever the comment says: `text c` is the source with `c` in it. -/
def LeavesGap (allowed : List Char → Prop) (text : List Char → List Char) : Prop :=
  ∃ before after, ∀ c, allowed c →
    ∃ n, blankComments (text c) = before ++ (List.replicate (n + 1) ' ' ++ after)

/-- A slash in front of the comment makes it a line comment. -/
theorem leavesGap_blockComment (h : regionAfter .code a = .code) (b : List Char) :
    LeavesGap IsBlockBody fun c => a ++ "/*".toList ++ c ++ "*/".toList ++ b := by
  obtain ⟨before, slash, hslash, hbefore⟩ := blankedAlone (r := .code) trivial h
  have hblank : ∀ c, blankComments (a ++ "/*".toList ++ c ++ "*/".toList ++ b) =
      before ++ blankFrom .code (slash ++ '/' :: '*' :: (c ++ '*' :: '/' :: b)) := fun c => by
    rw [← hbefore, blankComments_eq, ← blankFrom_eq_flatMap]
    simp
  rcases hslash with rfl | rfl
  · refine ⟨before, blankFrom .code b, fun c hc => ?_⟩
    obtain ⟨n, hn⟩ := exists_blankFrom_blockComment hc b
    exact ⟨n + 1, by rw [hblank, List.nil_append, blankFrom, hn]; rfl⟩
  · refine ⟨before, blankFrom .lineComment b, fun c hc => ?_⟩
    have hline : '\n' ∉ '*' :: (c ++ ['*', '/']) := by simp [hc.2]
    obtain ⟨n, hn⟩ := exists_blankFrom_lineComment hline b
    rw [List.cons_append, List.append_assoc, List.cons_append, List.cons_append,
      List.nil_append] at hn
    exact ⟨n + 1, by rw [hblank, List.singleton_append, blankFrom, hn]; rfl⟩

theorem leavesGap_lineComment (h : regionAfter .code a = .code) (b : List Char) :
    LeavesGap ('\n' ∉ ·) fun c => a ++ "//".toList ++ c ++ '\n' :: b := by
  obtain ⟨before, slash, hslash, hbefore⟩ := blankedAlone (r := .code) trivial h
  have hblank : ∀ c, blankComments (a ++ "//".toList ++ c ++ '\n' :: b) =
      before ++ blankFrom .code (slash ++ '/' :: '/' :: (c ++ '\n' :: b)) := fun c => by
    rw [← hbefore, blankComments_eq, ← blankFrom_eq_flatMap]
    simp
  refine ⟨before, blankFrom .lineComment ('\n' :: b), fun c hc => ?_⟩
  rcases hslash with rfl | rfl
  · obtain ⟨n, hn⟩ := exists_blankFrom_lineComment hc ('\n' :: b)
    exact ⟨n + 1, by rw [hblank, List.nil_append, blankFrom, hn]; rfl⟩
  · have hline : '\n' ∉ '/' :: c := by simp [hc]
    obtain ⟨n, hn⟩ := exists_blankFrom_lineComment hline ('\n' :: b)
    rw [List.cons_append] at hn
    exact ⟨n + 1, by rw [hblank, List.singleton_append, blankFrom, hn]; rfl⟩

/-- **Of a gap only the width may change**, and that is not seen. -/
theorem LeavesGap.extract_eq {allowed : List Char → Prop} {text : List Char → List Char}
    (h : LeavesGap allowed text) (hc : allowed c) (hc' : allowed c') :
    extract (text c) = extract (text c') := by
  obtain ⟨before, after, hgap⟩ := h
  have hnarrowed : ∀ c, allowed c →
      extract (text c) = exportsOf (declarationsOf (narrowed (before ++ ' ' :: after))) := by
    intro c hc
    obtain ⟨n, hn⟩ := hgap c hc
    rw [extract, hn, ← exportsOf_declarationsOf_narrowed, narrowed_replicate]
  rw [hnarrowed c hc, hnarrowed c' hc']

/-- **Editing a comment never changes the exports.** Behind a text `a` where
code goes on, and whatever text `b` follows, a block comment of one line can
say anything, and so can a line comment. -/
theorem extract_eq_of_comment_edited (h : regionAfter .code a = .code) (b : List Char) :
    (∀ c c', IsBlockBody c → IsBlockBody c' →
      extract (a ++ "/*".toList ++ c ++ "*/".toList ++ b) =
        extract (a ++ "/*".toList ++ c' ++ "*/".toList ++ b)) ∧
    (∀ c c', '\n' ∉ c → '\n' ∉ c' →
      extract (a ++ "//".toList ++ c ++ '\n' :: b) =
        extract (a ++ "//".toList ++ c' ++ '\n' :: b)) :=
  ⟨fun _ _ hc hc' => (leavesGap_blockComment h b).extract_eq hc hc',
    fun _ _ hc hc' => (leavesGap_lineComment h b).extract_eq hc hc'⟩

/-- A comment inside a declaration can go as well as say something else. -/
theorem extract_eq_inside_declaration :
    extract ("export ".toList ++ "/*".toList ++ "* old *".toList ++ "*/".toList ++
        "function f() {}".toList) =
      extract ("export ".toList ++ "/*".toList ++ [] ++ "*/".toList ++
        "function f() {}".toList) ∧
    extract ("export ".toList ++ "//".toList ++ " old */".toList ++
        '\n' :: "function f() {}".toList) =
      extract ("export ".toList ++ "//".toList ++ [] ++ '\n' :: "function f() {}".toList) := by
  have hcode : regionAfter .code "export ".toList = .code := by decide
  obtain ⟨hblock, hline⟩ := extract_eq_of_comment_edited hcode "function f() {}".toList
  exact ⟨hblock _ _ (by decide) (by decide), hline _ _ (by decide) (by decide)⟩

end Edits

end Source

end ExportAtlas
