import Mathlib.Data.List.Basic
import Mathlib.Data.List.TakeWhile
import ExportAtlas.Text.Pieces
import ExportAtlas.Text.Property
/-!
# Pieces, heads and trimmed texts

What splitting, cutting and trimming take from a text stands in it without
gaps (`infix_of_mem_splitOn`, `cutAt_isPrefix`, `trim_isInfix`). Forwards, a
text is split at the separators that were put between its pieces
(`splitOn_append_cons`), and a text of blanks around a text without any is
trimmed to it (`IsTrimmed.trim_eq`), which is how every trimmed text looks
(`isTrimmed_trim`).
-/

namespace ExportAtlas

namespace Text

section Separators

variable {α : Type} [DecidableEq α] {sep : α} {a s : List α}

/-- A text without separators is passed over in the search for one. -/
theorem bne_of_notMem (h : sep ∉ a) : ∀ x ∈ a, (x != sep) = true := fun _ hx =>
  bne_iff_ne.mpr fun heq => h (heq ▸ hx)

theorem splitOn_ne_nil (sep : α) (s : List α) : splitOn sep s ≠ [] := by
  cases s with
  | nil => exact List.cons_ne_nil _ _
  | cons x s =>
    rw [splitOn]
    split
    · exact List.cons_ne_nil _ _
    · split <;> exact List.cons_ne_nil _ _

/-- A text without separators is one piece. -/
theorem splitOn_of_notMem (h : sep ∉ a) : splitOn sep a = [a] := by
  induction a with
  | nil => rfl
  | cons x a ih =>
    rw [List.mem_cons, not_or] at h
    rw [splitOn, ih h.2, if_neg (by simpa using Ne.symm h.1)]

/-- **A text is split at its first separator.** -/
theorem splitOn_append_cons (h : sep ∉ a) (s : List α) :
    splitOn sep (a ++ sep :: s) = a :: splitOn sep s := by
  induction a with
  | nil => rw [List.nil_append, splitOn, if_pos (beq_self_eq_true sep)]
  | cons x a ih =>
    rw [List.mem_cons, not_or] at h
    rw [List.cons_append, splitOn, ih h.2, if_neg (by simpa using Ne.symm h.1)]

/-- A text is one piece, or a piece before a separator and a text behind it. -/
theorem pieces_induction {P : List α → Prop} (sep : α) (last : ∀ a, sep ∉ a → P a)
    (more : ∀ a s, sep ∉ a → P s → P (a ++ sep :: s)) (s : List α) : P s := by
  induction hn : s.length using Nat.strong_induction_on generalizing s with
  | _ n ih =>
  by_cases h : sep ∈ s
  · obtain ⟨a, rest, rfl, ha⟩ := List.eq_append_cons_of_mem h
    rw [List.length_append, List.length_cons] at hn
    exact more a rest ha (ih rest.length (by omega) rest rfl)
  · exact last s h

/-- **The pieces on both sides of a separator** are those of the list. -/
theorem splitOn_append (a s : List α) :
    splitOn sep (a ++ sep :: s) = splitOn sep a ++ splitOn sep s := by
  induction a using pieces_induction sep with
  | last a ha => rw [splitOn_append_cons ha, splitOn_of_notMem ha, List.singleton_append]
  | more a b ha ih =>
    rw [List.append_assoc, List.cons_append, splitOn_append_cons ha, splitOn_append_cons ha, ih,
      List.cons_append]

/-- **Pieces are free of the separator.** -/
theorem notMem_of_mem_splitOn {piece : List α} (h : piece ∈ splitOn sep s) : sep ∉ piece := by
  induction s using pieces_induction sep with
  | last a ha =>
    rw [splitOn_of_notMem ha, List.mem_singleton] at h
    exact h ▸ ha
  | more a s ha ih =>
    rw [splitOn_append_cons ha, List.mem_cons] at h
    rcases h with rfl | h
    · exact ha
    · exact ih h

/-- The first piece begins the text, and the others lie in what follows its
first character. -/
theorem splitOn_cons_pieces {x : α} {piece : List α} {pieces : List (List α)}
    (h : splitOn sep s = piece :: pieces) :
    splitOn sep (x :: s) = [] :: piece :: pieces ∨
      splitOn sep (x :: s) = (x :: piece) :: pieces := by
  rw [splitOn, h]
  split
  · exact .inl rfl
  · exact .inr rfl

/-- **Pieces stand in the text**, the first one at its front. -/
theorem prefix_and_infix_of_splitOn :
    ∀ {s : List α} {piece : List α} {pieces : List (List α)},
      splitOn sep s = piece :: pieces → piece <+: s ∧ ∀ q ∈ pieces, q <:+: s := by
  intro s
  induction s with
  | nil =>
    intro piece pieces h
    obtain ⟨rfl, rfl⟩ := List.cons.inj h
    exact ⟨List.prefix_rfl, fun q hq => nomatch hq⟩
  | cons x s ih =>
    intro piece pieces h
    obtain ⟨first, others, hs⟩ := List.exists_cons_of_ne_nil (splitOn_ne_nil sep s)
    obtain ⟨hfirst, hothers⟩ := ih hs
    have hlater : ∀ {q : List α}, q <:+: s → q <:+: x :: s := fun hq =>
      hq.trans (List.suffix_cons x s).isInfix
    rcases splitOn_cons_pieces (x := x) hs with hx | hx
    · rw [hx] at h
      obtain ⟨rfl, rfl⟩ := List.cons.inj h
      refine ⟨List.nil_prefix, fun q hq => ?_⟩
      rcases List.mem_cons.mp hq with rfl | hq
      · exact hlater hfirst.isInfix
      · exact hlater (hothers q hq)
    · rw [hx] at h
      obtain ⟨rfl, rfl⟩ := List.cons.inj h
      exact ⟨(List.prefix_cons_inj x).mpr hfirst, fun q hq => hlater (hothers q hq)⟩

theorem infix_of_mem_splitOn {piece : List α} (h : piece ∈ splitOn sep s) : piece <:+: s := by
  obtain ⟨first, others, hs⟩ := List.exists_cons_of_ne_nil (splitOn_ne_nil sep s)
  obtain ⟨hfirst, hothers⟩ := prefix_and_infix_of_splitOn hs
  rw [hs] at h
  rcases List.mem_cons.mp h with rfl | hmem
  · exact hfirst.isInfix
  · exact hothers piece hmem

theorem cutAt_isPrefix (sep : α) (s : List α) : (cutAt sep s).1 <+: s := by
  induction s with
  | nil => exact List.prefix_rfl
  | cons x s ih =>
    rw [cutAt]
    split
    · exact List.nil_prefix
    · exact (List.prefix_cons_inj x).mpr ih

theorem cutAt_fst (sep : α) (s : List α) : (cutAt sep s).1 = s.takeWhile (· != sep) := by
  induction s with
  | nil => rfl
  | cons x s ih =>
    rw [cutAt, List.takeWhile_cons, bne]
    cases x == sep with
    | true => rfl
    | false => exact congrArg (x :: ·) ih

theorem cutAt_of_notMem (h : sep ∉ a) : cutAt sep a = (a, none) := by
  induction a with
  | nil => rfl
  | cons x a ih =>
    rw [List.mem_cons, not_or] at h
    rw [cutAt, ih h.2, if_neg (by simpa using Ne.symm h.1)]

/-- **A text is cut at its first separator.** -/
theorem cutAt_append_cons (h : sep ∉ a) (s : List α) : cutAt sep (a ++ sep :: s) = (a, some s) := by
  induction a with
  | nil => rw [List.nil_append, cutAt, if_pos (beq_self_eq_true sep)]
  | cons x a ih =>
    rw [List.mem_cons, not_or] at h
    rw [List.cons_append, cutAt, ih h.2, if_neg (by simpa using Ne.symm h.1)]

/-- The first separator of two lists is in the front one, if that has one. -/
theorem cutAt_fst_append_of_mem (h : sep ∈ a) (s : List α) :
    (cutAt sep (a ++ s)).1 = (cutAt sep a).1 := by
  obtain ⟨x, y, rfl, hx⟩ := List.eq_append_cons_of_mem h
  rw [List.append_assoc, List.cons_append, cutAt_append_cons hx, cutAt_append_cons hx]

theorem cutAt_fst_append_of_notMem (h : sep ∉ a) (s : List α) :
    (cutAt sep (a ++ s)).1 = a ++ (cutAt sep s).1 := by
  rw [cutAt_fst, cutAt_fst, List.takeWhile_append_of_pos (bne_of_notMem h)]

end Separators

/-! ## One text inside another -/

section Inside

variable {α : Type} {sep : α} {a s w : List α}

/-- **A text stands in another** if it is found in it. -/
theorem occursIn_iff [DecidableEq α] : occursIn w s = true ↔ w <:+: s := by
  induction s with
  | nil => rw [occursIn, List.isEmpty_iff, List.infix_nil]
  | cons x s ih => rw [occursIn, Bool.or_eq_true, List.isPrefixOf_iff_prefix, ih, List.infix_cons_iff]

/-- **A text without separators stands on one side of a separator.** -/
theorem infix_append_cons_iff (h : sep ∉ w) :
    w <:+: a ++ sep :: s ↔ w <:+: a ∨ w <:+: s := by
  constructor
  · rintro ⟨front, back, heq⟩
    rcases List.append_eq_append_iff.mp heq with ⟨more, rfl, -⟩ | ⟨more, hfront, hmore⟩
    · exact .inl ⟨front, more, rfl⟩
    rcases List.cons_eq_append_iff.mp hmore with ⟨rfl, -⟩ | ⟨more, rfl, rfl⟩
    · rw [List.append_nil] at hfront
      exact .inl ⟨front, [], by rw [List.append_nil, hfront]⟩
    -- the separator stands in front of the text
    rcases List.append_eq_append_iff.mp hfront with ⟨rest, -, rfl⟩ | ⟨rest, -, hrest⟩
    · exact absurd (List.mem_append_right rest (List.mem_cons_self ..)) h
    rcases List.cons_eq_append_iff.mp hrest with ⟨-, rfl⟩ | ⟨rest, -, rfl⟩
    · exact absurd (List.mem_cons_self ..) h
    · exact .inr ⟨rest, back, rfl⟩
  · rintro (h | h)
    · exact h.trans (List.prefix_append a _).isInfix
    · exact h.trans ((List.suffix_cons sep s).trans (List.suffix_append a _)).isInfix

end Inside

/-! ## Trimming -/

section Trimming

variable {a b s : List Char}

theorem trimRight_isPrefix (s : List Char) : trimRight s <+: s := by
  rw [trimRight, ← List.reverse_suffix, List.reverse_reverse]
  exact List.dropWhile_suffix _

/-- **A trimmed text stands in the text.** -/
theorem trim_isInfix (s : List Char) : trim s <:+: s :=
  (trimRight_isPrefix _).isInfix.trans (List.dropWhile_suffix _).isInfix

theorem dropWhile_isBlank (ha : ∀ c ∈ a, isBlank c = true) (hs : ∀ c ∈ s.head?, isBlank c = false) :
    (a ++ s).dropWhile isBlank = s := by
  rw [List.dropWhile_append_of_pos ha]
  cases s with
  | nil => rfl
  | cons c s =>
    rw [List.dropWhile_cons, hs c rfl, if_neg Bool.false_ne_true]

/-- A text with something in it and no blank at either end. -/
structure IsTrimmed (s : List Char) : Prop where
  ne_nil : s ≠ []
  head : ∀ c ∈ s.head?, isBlank c = false
  last : ∀ c ∈ s.getLast?, isBlank c = false

instance (s : List Char) : Decidable (IsTrimmed s) :=
  -- by `Option.all`, so that no instance goes through all characters
  decidable_of_iff
    (s ≠ [] ∧ (s.head?.all fun c => !isBlank c) = true ∧ (s.getLast?.all fun c => !isBlank c) = true)
    (by
      simp only [Option.all_eq_true, Bool.not_eq_true']
      exact ⟨fun ⟨hne, hhead, hlast⟩ => ⟨hne, hhead, hlast⟩,
        fun h => ⟨h.ne_nil, h.head, h.last⟩⟩)

/-- **Blanks around a text that begins and ends without any** are trimmed. -/
theorem IsTrimmed.trim_eq (hs : IsTrimmed s) (ha : ∀ c ∈ a, isBlank c = true)
    (hb : ∀ c ∈ b, isBlank c = true) : trim (a ++ (s ++ b)) = s := by
  have hleft : trimLeft (a ++ (s ++ b)) = s ++ b := by
    refine dropWhile_isBlank ha fun c hc => hs.head c ?_
    rwa [List.head?_append_of_ne_nil _ hs.ne_nil] at hc
  have hright : (b.reverse ++ s.reverse).dropWhile isBlank = s.reverse := by
    refine dropWhile_isBlank (fun c hc => hb c (List.mem_reverse.mp hc)) fun c hc => hs.last c ?_
    rwa [List.head?_reverse] at hc
  rw [trim, hleft, trimRight, List.reverse_append, hright, List.reverse_reverse]

/-- A text that begins and ends without blanks is kept from the front of a
longer one. -/
theorem IsTrimmed.isPrefix_trim_append (hs : IsTrimmed s) (b : List Char) :
    s <+: trim (s ++ b) := by
  have hleft : trimLeft (s ++ b) = s ++ b := by
    rw [trimLeft, ← List.nil_append (s ++ b)]
    refine dropWhile_isBlank (fun c hc => nomatch hc) fun c hc => hs.head c ?_
    rwa [List.head?_append_of_ne_nil _ hs.ne_nil] at hc
  have hright : s.reverse.dropWhile isBlank = s.reverse := by
    rw [← List.nil_append s.reverse]
    refine dropWhile_isBlank (fun c hc => nomatch hc) fun c hc => hs.last c ?_
    rwa [List.head?_reverse] at hc
  rw [trim, hleft, trimRight, List.reverse_append, List.dropWhile_append]
  split
  · exact ⟨[], by rw [List.append_nil, hright, List.reverse_reverse]⟩
  · rw [List.reverse_append, List.reverse_reverse]
    exact List.prefix_append _ _

theorem trim_of_not_isBlank (ha : ∀ c ∈ a, isBlank c = true) (hb : ∀ c ∈ b, isBlank c = true)
    (hs : ∀ c ∈ s, isBlank c = false) (hne : s ≠ []) : trim (a ++ (s ++ b)) = s :=
  IsTrimmed.trim_eq ⟨hne, fun c hc => hs c (List.mem_of_mem_head? hc),
    fun c hc => hs c (List.mem_of_mem_getLast? hc)⟩ ha hb

theorem not_isBlank_of_head?_dropWhile {c : Char} (h : c ∈ (s.dropWhile isBlank).head?) :
    isBlank c = false := by
  have := List.head?_dropWhile_not isBlank s
  rwa [Option.mem_def.mp h] at this

/-- **What trimming leaves** has no blank at either end. -/
theorem isTrimmed_trim (h : trim s ≠ []) : IsTrimmed (trim s) := by
  refine ⟨h, fun c hc => ?_, fun c hc => ?_⟩
  · obtain ⟨rest, hrest⟩ := trimRight_isPrefix (trimLeft s)
    refine not_isBlank_of_head?_dropWhile (s := s) ?_
    change c ∈ (trimLeft s).head?
    rw [← hrest]
    rwa [List.head?_append_of_ne_nil (trimRight (trimLeft s)) h]
  · rw [trim, trimRight, List.getLast?_reverse] at hc
    exact not_isBlank_of_head?_dropWhile hc

/-- Nothing is left of a text of blanks, and of no other. -/
theorem trim_eq_nil_iff : trim s = [] ↔ ∀ c ∈ s, isBlank c = true := by
  rw [trim, trimRight, List.reverse_eq_nil_iff, List.dropWhile_eq_nil_iff, trimLeft]
  constructor
  · intro h
    have hnil : s.dropWhile isBlank = [] := by
      cases hd : s.dropWhile isBlank with
      | nil => rfl
      | cons c rest =>
        have hc := not_isBlank_of_head?_dropWhile (s := s) (c := c) (by rw [hd]; rfl)
        rw [h c (by rw [hd, List.mem_reverse]; exact List.mem_cons_self ..)] at hc
        cases hc
    exact List.dropWhile_eq_nil_iff.mp hnil
  · intro h c hc
    exact h c ((List.dropWhile_suffix _).subset (List.mem_reverse.mp hc))

end Trimming

end Text

end ExportAtlas
