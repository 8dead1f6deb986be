import ExportAtlas.Proofs.Source.Names
/-!
# Narrow gaps

A text is narrowed when each run of its spaces has become one space
(`narrowed`); two texts are narrowed one by one if no gap lies across their
border (`narrowed_append`). No reader sees how wide a gap is: of the narrowed
text it leaves what it leaves of the text, narrowed (`ReadsNarrowed`), and a
scan finds in it what it finds in the text (`ScansNarrowed`). Like `Leaves`
and `Finds` this is kept when one reader goes on behind another.
-/

namespace ExportAtlas

namespace Source

open Text (isBlank isWord)

/-- A text with each run of spaces narrowed to one space. -/
def narrowed : List Char → List Char
  | [] => []
  | c :: s => if c = ' ' ∧ s.head? = some ' ' then narrowed s else c :: narrowed s

/-! ## Narrowing -/

section Narrowing

variable {a b s : List Char} {c : Char}

theorem narrowed_space_space (s : List Char) :
    narrowed (' ' :: ' ' :: s) = narrowed (' ' :: s) := by
  rw [narrowed, if_pos ⟨rfl, rfl⟩]

theorem narrowed_cons (h : ¬ (c = ' ' ∧ s.head? = some ' ')) :
    narrowed (c :: s) = c :: narrowed s := by
  rw [narrowed, if_neg h]

theorem narrowed_cons_of_ne (hc : c ≠ ' ') : narrowed (c :: s) = c :: narrowed s :=
  narrowed_cons fun h => hc h.1

theorem narrowed_singleton (c : Char) : narrowed [c] = [c] :=
  narrowed_cons fun h => nomatch h.2

/-- Narrowing keeps the first character. -/
theorem head?_narrowed (s : List Char) : (narrowed s).head? = s.head? := by
  fun_induction narrowed s with
  | case1 => rfl
  | case2 c s h ih => rw [ih, h.2, List.head?_cons, h.1]
  | case3 c s h ih => rfl

theorem exists_narrowed_cons (c : Char) (s : List Char) : ∃ t, narrowed (c :: s) = c :: t := by
  have hhead := head?_narrowed (c :: s)
  rw [List.head?_cons] at hhead
  obtain ⟨t, ht⟩ := List.head?_eq_some_iff.mp hhead
  exact ⟨t, ht⟩

theorem narrowed_eq_nil_iff : narrowed s = [] ↔ s = [] := by
  rw [← List.head?_eq_none_iff, head?_narrowed, List.head?_eq_none_iff]

theorem isEmpty_narrowed (s : List Char) : (narrowed s).isEmpty = s.isEmpty := by
  rw [Bool.eq_iff_iff, List.isEmpty_iff, List.isEmpty_iff, narrowed_eq_nil_iff]

theorem mem_narrowed : c ∈ narrowed s ↔ c ∈ s := by
  fun_induction narrowed s with
  | case1 => rfl
  | case2 d s h ih =>
    rw [ih, List.mem_cons, h.1, or_iff_right_of_imp]
    rintro rfl
    exact List.mem_of_mem_head? h.2
  | case3 d s h ih => rw [List.mem_cons, List.mem_cons, ih]

/-- A text without spaces is narrow. -/
theorem narrowed_of_notMem (h : ' ' ∉ s) : narrowed s = s := by
  induction s with
  | nil => rfl
  | cons c s ih =>
    rw [List.mem_cons, not_or] at h
    rw [narrowed_cons_of_ne (Ne.symm h.1), ih h.2]

/-- No gap lies across the border of two texts. -/
def Apart (a b : List Char) : Prop := a.getLast? ≠ some ' ' ∨ b.head? ≠ some ' '

/-- **Two texts are narrowed one by one**, unless a gap lies across their
border. -/
theorem narrowed_append (h : Apart a b) : narrowed (a ++ b) = narrowed a ++ narrowed b := by
  induction a with
  | nil => rfl
  | cons c a ih =>
    cases a with
    | nil =>
      rw [List.singleton_append, narrowed_singleton, List.singleton_append, narrowed_cons]
      rintro ⟨rfl, hb⟩
      exact Or.elim h (fun h => h rfl) fun h => h hb
    | cons d a =>
      have ih' := ih (Or.imp_left (fun h => by rwa [List.getLast?_cons_cons] at h) h)
      by_cases hcd : c = ' ' ∧ d = ' '
      · obtain ⟨rfl, rfl⟩ := hcd
        rw [List.cons_append, List.cons_append, narrowed_space_space, narrowed_space_space]
        exact ih'
      · have hcd' : ∀ t, ¬ (c = ' ' ∧ (d :: t).head? = some ' ') := fun t h =>
          hcd ⟨h.1, Option.some.inj h.2⟩
        rw [List.cons_append, List.cons_append, narrowed_cons (hcd' _), narrowed_cons (hcd' _),
          List.cons_append, ← ih', List.cons_append]

theorem apart_concat {c : Char} (hc : c ≠ ' ') (a b : List Char) : Apart (a ++ [c]) b := by
  refine .inl ?_
  rw [List.getLast?_concat, ne_eq, Option.some.injEq]
  exact hc

theorem apart_cons {c : Char} (hc : c ≠ ' ') (a b : List Char) : Apart a (c :: b) :=
  .inr fun h => hc (Option.some.inj h)

/-- The end of a text is narrowed as it would be alone; what stands before it
is narrowed to something that ends in a word character when it did, unless
the end begins with a gap. -/
theorem exists_narrowed_append (a b : List Char) : ∃ a', narrowed (a ++ b) = a' ++ narrowed b ∧
    (b.head? = some ' ' ∨ ∀ w, endsInWord w a' = endsInWord w a) := by
  induction a with
  | nil => exact ⟨[], rfl, .inr fun _ => rfl⟩
  | cons c a ih =>
    obtain ⟨a', ha', hends⟩ := ih
    rw [List.cons_append]
    by_cases h : c = ' ' ∧ (a ++ b).head? = some ' '
    · refine ⟨a', by rw [narrowed, if_pos h, ha'], ?_⟩
      cases a with
      | nil => exact .inl h.2
      | cons d a => exact hends
    · exact ⟨c :: a', by rw [narrowed_cons h, ha', List.cons_append],
        hends.imp_right fun hw _ => hw _⟩

/-- The place in the narrowed text of a place of a text. -/
def narrowedPlace (text : List Char) (place : Nat) : Nat := (narrowed (text.take place)).length

theorem narrowedPlace_append (a b : List Char) :
    narrowedPlace (a ++ b) a.length = (narrowed a).length := by
  rw [narrowedPlace, List.take_left]

/-- **One space more in a gap** is not seen. -/
theorem narrowed_gap (a b : List Char) :
    narrowed (a ++ ' ' :: ' ' :: b) = narrowed (a ++ ' ' :: b) := by
  induction a with
  | nil => exact narrowed_space_space b
  | cons c a ih =>
    have hhead : (a ++ ' ' :: ' ' :: b).head? = (a ++ ' ' :: b).head? := by
      rw [List.head?_append, List.head?_append, List.head?_cons, List.head?_cons]
    rw [List.cons_append, List.cons_append, narrowed, narrowed, hhead, ih]

theorem narrowed_replicate (a b : List Char) (n : Nat) :
    narrowed (a ++ (List.replicate (n + 1) ' ' ++ b)) = narrowed (a ++ ' ' :: b) := by
  induction n with
  | zero => rfl
  | succ n ih =>
    rw [List.replicate_succ, List.replicate_succ, List.cons_append, List.cons_append,
      narrowed_gap, ← List.cons_append, ← List.replicate_succ, ih]

/-- It is the same to narrow a text from its end. -/
theorem narrowed_reverse (s : List Char) : narrowed s.reverse = (narrowed s).reverse := by
  fun_induction narrowed s with
  | case1 => rfl
  | case2 c s h ih =>
    obtain ⟨rfl, hs⟩ := h
    obtain ⟨r, rfl⟩ := List.head?_eq_some_iff.mp hs
    rw [← ih, List.reverse_cons, List.reverse_cons, List.append_assoc]
    exact narrowed_gap r.reverse []
  | case3 c s h ih =>
    rw [List.reverse_cons, List.reverse_cons, narrowed_append, ih]
    · rw [narrowed_singleton]
    · rw [Apart, List.getLast?_reverse, ← not_and_or]
      exact fun hboth => h ⟨Option.some.inj hboth.2, hboth.1⟩

/-- Dropping from the front is done alike before and after narrowing. -/
theorem dropWhile_narrowed (p : Char → Bool) (s : List Char) :
    (narrowed s).dropWhile p = narrowed (s.dropWhile p) := by
  fun_induction narrowed s with
  | case1 => rfl
  | case2 c s h ih =>
    rw [ih]
    obtain ⟨rfl, hs⟩ := h
    obtain ⟨r, rfl⟩ := List.head?_eq_some_iff.mp hs
    by_cases hp : p ' ' = true
    · simp only [List.dropWhile_cons_of_pos hp]
    · simp only [List.dropWhile_cons_of_neg hp, narrowed_space_space]
  | case3 c s h ih =>
    by_cases hp : p c = true
    · rw [List.dropWhile_cons_of_pos hp, List.dropWhile_cons_of_pos hp, ih]
    · rw [List.dropWhile_cons_of_neg hp, List.dropWhile_cons_of_neg hp, narrowed_cons h]

/-- And so is taking. -/
theorem takeWhile_narrowed (p : Char → Bool) (s : List Char) :
    (narrowed s).takeWhile p = narrowed (s.takeWhile p) := by
  fun_induction narrowed s with
  | case1 => rfl
  | case2 c s h ih =>
    rw [ih]
    obtain ⟨rfl, hs⟩ := h
    obtain ⟨r, rfl⟩ := List.head?_eq_some_iff.mp hs
    by_cases hp : p ' ' = true
    · simp only [List.takeWhile_cons_of_pos hp, narrowed_space_space]
    · simp only [List.takeWhile_cons_of_neg hp]
  | case3 c s h ih =>
    by_cases hp : p c = true
    · rw [List.takeWhile_cons_of_pos hp, List.takeWhile_cons_of_pos hp, ih, narrowed_cons]
      rintro ⟨rfl, hs⟩
      refine h ⟨rfl, ?_⟩
      cases s with
      | nil => cases hs
      | cons d s =>
        rw [List.takeWhile_cons] at hs
        split at hs
        · exact hs
        · cases hs
    · rw [List.takeWhile_cons_of_neg hp, List.takeWhile_cons_of_neg hp, narrowed]

end Narrowing

/-! ## Readers -/

/-- What is passed over is told by the narrowed text, and an end of the text
is left. -/
structure PassesNarrowed (pass : List Char → List Char) : Prop where
  narrowed : ∀ s, pass (narrowed s) = narrowed (pass s)
  leaves : ∀ s, pass s <:+ s

/-- Of a narrowed text a reader leaves what it leaves of the text, narrowed,
and that is an end of it. -/
structure ReadsNarrowed (read : List Char → Option (List Char)) : Prop where
  narrowed : ∀ s, read (narrowed s) = (read s).map narrowed
  leaves : Leaves read

/-- In a narrowed text a scan finds what it finds in the text, as `view` sees
it, and leaves what it leaves, narrowed. -/
structure ScansNarrowed {α : Type} (view : α → α) (scan : Scan α) : Prop where
  narrowed : ∀ s, scan (narrowed s) = (scan s).map (Prod.map view narrowed)
  leaves : ∀ s x, scan s = some x → x.2 <:+ s

section Readers

variable {α β : Type} {view : α → α} {scan : Scan α}
  {read next : List Char → Option (List Char)} {pass pass' : List Char → List Char}

theorem reads_expect (ks : List Char) (h : ' ' ∉ ks) :
    ReadsNarrowed (expect ks) := by
  refine ⟨fun s => ?_, leaves_expect ks⟩
  induction ks generalizing s with
  | nil => rfl
  | cons k ks ih =>
    rw [List.mem_cons, not_or] at h
    cases s with
    | nil => rfl
    | cons c s =>
      obtain ⟨t, ht⟩ := exists_narrowed_cons c s
      rw [ht, expect, expect]
      split
      · rename_i hk
        rw [narrowed_cons_of_ne (hk ▸ Ne.symm h.1)] at ht
        rw [← (List.cons.inj ht).2, ih h.2]
      · rfl

theorem passes_dropWhile (p : Char → Bool) : PassesNarrowed fun s => s.dropWhile p :=
  ⟨dropWhile_narrowed p, fun _ => List.dropWhile_suffix p⟩

theorem passes_skipBlanks : PassesNarrowed skipBlanks := passes_dropWhile isBlank

theorem PassesNarrowed.comp (hpass' : PassesNarrowed pass') (hpass : PassesNarrowed pass) :
    PassesNarrowed fun s => pass' (pass s) :=
  ⟨fun s => by rw [hpass.narrowed, hpass'.narrowed],
    fun s => (hpass'.leaves _).trans (hpass.leaves s)⟩

theorem ReadsNarrowed.optionally (h : ReadsNarrowed read) : PassesNarrowed (optionally read) := by
  refine ⟨fun s => ?_, h.leaves.optionally⟩
  rw [Source.optionally, Source.optionally, h.narrowed]
  cases read s <;> rfl

theorem ReadsNarrowed.bind (hread : ReadsNarrowed read) (hnext : ReadsNarrowed next) :
    ReadsNarrowed fun s => (read s).bind next := by
  refine ⟨fun s => ?_, hread.leaves.bind hnext.leaves⟩
  rw [hread.narrowed, Option.bind_map, Option.map_bind]
  exact Option.bind_congr fun t _ => hnext.narrowed t

theorem ReadsNarrowed.behind (hread : ReadsNarrowed read) (hpass : PassesNarrowed pass) :
    ReadsNarrowed fun s => read (pass s) :=
  ⟨fun s => by rw [hpass.narrowed, hread.narrowed],
    fun s r h => (hread.leaves _ r h).trans (hpass.leaves s)⟩

theorem PassesNarrowed.after (hpass : PassesNarrowed pass) (hread : ReadsNarrowed read) :
    ReadsNarrowed fun s => (read s).bind fun t => some (pass t) :=
  hread.bind ⟨fun s => congrArg some (hpass.narrowed s), fun s r h => by
    rw [← Option.some.inj h]
    exact hpass.leaves s⟩

theorem ReadsNarrowed.or (hread : ReadsNarrowed read) (hnext : ReadsNarrowed next) :
    ReadsNarrowed fun s => (read s).or (next s) := by
  refine ⟨fun s => ?_, fun s r h => ?_⟩
  · rw [hread.narrowed, hnext.narrowed, Option.map_or]
  · rcases Option.or_eq_some_iff.mp h with h | ⟨-, h⟩
    · exact hread.leaves s r h
    · exact hnext.leaves s r h

/-- Whether a reader succeeds is told by the narrowed text. -/
theorem ReadsNarrowed.isSome (hread : ReadsNarrowed read) (s : List Char) :
    (read (Source.narrowed s)).isSome = (read s).isSome := by
  rw [hread.narrowed, Option.isSome_map]

theorem reads_expectChar (c : Char) (h : c ≠ ' ') : ReadsNarrowed (expectChar c) :=
  reads_expect [c] fun hmem => h (List.mem_singleton.mp hmem).symm

theorem reads_someBlanks : ReadsNarrowed someBlanks := by
  refine ⟨fun s => ?_, leaves_someBlanks⟩
  cases s with
  | nil => rfl
  | cons c s =>
    -- behind the first blank all others are skipped, so it may be read with them
    have hskip : ∀ t, someBlanks (c :: t) =
        if isBlank c then some (skipBlanks (c :: t)) else none := by
      intro t
      rw [someBlanks]
      split
      · rename_i hc
        rw [skipBlanks, skipBlanks, List.dropWhile_cons_of_pos hc]
      · rfl
    obtain ⟨t, ht⟩ := exists_narrowed_cons c s
    rw [ht, hskip, hskip, ← ht, passes_skipBlanks.narrowed]
    split <;> rfl

theorem reads_keyword (word : String) (h : ' ' ∉ word.toList) :
    ReadsNarrowed (keyword word) :=
  (reads_expect word.toList h).bind reads_someBlanks

theorem atWordEnd_narrowed (s : List Char) : atWordEnd (narrowed s) = atWordEnd s := by
  cases s with
  | nil => rfl
  | cons c s =>
    obtain ⟨t, ht⟩ := exists_narrowed_cons c s
    rw [ht, atWordEnd, atWordEnd]

theorem reads_wholeWord (word : String) (h : ' ' ∉ word.toList) :
    ReadsNarrowed (wholeWord word) := by
  have hend : ReadsNarrowed fun s => if atWordEnd s then some s else none := by
    refine ⟨fun s => ?_, fun s r h => ?_⟩
    · rw [atWordEnd_narrowed]
      split <;> rfl
    · split at h
      · rw [Option.some.inj h]
      · cases h
  exact (reads_expect word.toList h).bind hend

theorem reads_endOfStatement : ReadsNarrowed endOfStatement := by
  have hspaces := passes_dropWhile fun c => c == ' ' || c == '\t'
  have hpass := (reads_expectChar '\r' (by decide)).optionally.comp
    (hspaces.comp ((reads_expectChar ';' (by decide)).optionally.comp hspaces))
  have hline : ReadsNarrowed fun s => match s with
      | [] => some []
      | c :: _ => if c = '\n' then some s else none := by
    refine ⟨fun s => ?_, fun s r h => ?_⟩
    · cases s with
      | nil => rfl
      | cons c s =>
        obtain ⟨t, ht⟩ := exists_narrowed_cons c s
        rw [ht]
        dsimp only
        rw [← ht]
        split <;> rfl
    · cases s with
      | nil => rw [← Option.some.inj h]
      | cons c s =>
        dsimp only at h
        split at h
        · rw [Option.some.inj h]
        · cases h
  exact hline.behind hpass

theorem reads_skipPast (stop : Char) (h : stop ≠ ' ') :
    ReadsNarrowed (skipPast stop) := by
  refine ⟨fun s => ?_, leaves_skipPast stop⟩
  rw [skipPast, skipPast, dropWhile_narrowed]
  cases hdrop : s.dropWhile (· != stop) with
  | nil => rfl
  | cons c rest =>
    -- what stops the reader is no space
    have hc := List.head?_dropWhile_not (· != stop) s
    rw [hdrop, List.head?_cons] at hc
    have hstop : c = stop := by simpa using hc
    rw [narrowed_cons_of_ne (hstop ▸ h)]
    rfl

/-! ## Scans -/

theorem scans_name : ScansNarrowed id name := by
  refine ⟨fun s => ?_, fun s x h => ?_⟩
  · cases s with
    | nil => rfl
    | cons c s =>
      obtain ⟨t, ht⟩ := exists_narrowed_cons c s
      rw [ht, name, name]
      split
      · rename_i hc
        have hne := (ne_blank_of_isNamePart (isNamePart_of_isPlainPart
          (isPlainPart_of_isNameStart hc))).1
        rw [narrowed_cons_of_ne hne] at ht
        have htake : ' ' ∉ s.takeWhile isNamePart := fun hmem =>
          (ne_blank_of_isNamePart (List.mem_takeWhile_imp hmem)).1 rfl
        rw [← (List.cons.inj ht).2, takeWhile_narrowed, dropWhile_narrowed,
          narrowed_of_notMem htake]
        rfl
      · rfl
  · cases s with
    | nil => cases h
    | cons c s =>
      rw [name] at h
      split at h
      · rw [← Option.some.inj h]
        exact (List.dropWhile_suffix _).trans (List.suffix_cons c s)
      · cases h

/-- A scan that goes on where a reader stops. -/
theorem ScansNarrowed.bind (hscan : ScansNarrowed view scan) (hread : ReadsNarrowed read) :
    ScansNarrowed view fun s => (read s).bind scan := by
  refine ⟨fun s => ?_, fun s x h => ?_⟩
  · rw [hread.narrowed, Option.bind_map, Option.map_bind]
    exact Option.bind_congr fun t _ => hscan.narrowed t
  · obtain ⟨t, ht, hx⟩ := Option.bind_eq_some_iff.mp h
    exact (hscan.leaves t x hx).trans (hread.leaves s t ht)

/-- A scan that goes on where something has been passed over. -/
theorem ScansNarrowed.behind (hscan : ScansNarrowed view scan) (hpass : PassesNarrowed pass) :
    ScansNarrowed view fun s => scan (pass s) :=
  ⟨fun s => by rw [hpass.narrowed, hscan.narrowed],
    fun s x h => (hscan.leaves _ x h).trans (hpass.leaves s)⟩

/-- What is done behind a finding. -/
theorem ScansNarrowed.andThen (hscan : ScansNarrowed view scan) (view' : β → β)
    (next : α × List Char → Option (β × List Char))
    (hnext : ∀ x, next (Prod.map view Source.narrowed x) =
      (next x).map (Prod.map view' Source.narrowed))
    (hleaves : ∀ x y, next x = some y → y.2 <:+ x.2) :
    ScansNarrowed view' fun s => (scan s).bind next := by
  refine ⟨fun s => ?_, fun s y h => ?_⟩
  · rw [hscan.narrowed, Option.bind_map, Option.map_bind]
    exact Option.bind_congr fun x _ => hnext x
  · obtain ⟨x, hx, hy⟩ := Option.bind_eq_some_iff.mp h
    exact (hleaves x y hy).trans (hscan.leaves s x hx)

/-- A name counts only if a reader succeeds behind it. -/
theorem ScansNarrowed.before (hscan : ScansNarrowed view scan) (hread : ReadsNarrowed read) :
    ScansNarrowed view fun s => (scan s).bind fun x => (read x.2).bind fun t => some (x.1, t) := by
  refine hscan.andThen view _ (fun x => ?_) fun x y h => ?_
  · rw [Prod.map_snd, Prod.map_fst, hread.narrowed, Option.bind_map, Option.map_bind]
    rfl
  · obtain ⟨t, ht, hy⟩ := Option.bind_eq_some_iff.mp h
    rw [← Option.some.inj hy]
    exact hread.leaves x.2 t ht

theorem scans_quotedName : ScansNarrowed id quotedName := by
  have hquote := (reads_expectChar '"' (by decide)).or
    (reads_expectChar '\'' (by decide))
  exact (scans_name.before hquote).bind hquote

end Readers

end Source

end ExportAtlas
