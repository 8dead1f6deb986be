import ExportAtlas.Proofs.Source.Places
/-!
# The two module systems

The declarations of ES modules are collected first, those of CommonJS behind them,
and the sort by position would keep that order at a place where both declare. There
is no such place. ES modules declare only where an export is opened, and CommonJS
only where none is (`CommonJs.unopened_of_mem_declarations`).

For a member, a whole module and a model the word in front decides. The key of an
object literal stands where its item begins, and an item may well begin with
`export`. But what opens an export goes on behind that word and is no name
(`IsOpening`), and an item that begins so has no name for a key
(`opensExport_item`).
-/

namespace ExportAtlas

namespace Source

open Text (isBlank IsTrimmed)

variable {α : Type} {scan : Scan α} {a body item rest s text : List Char} {c : Char}
  {found : α} {d e : Declaration} {p q : Nat}

/-! ## What opens an export -/

/-- What opens an export: a text of letters, blanks and open braces, without blanks
at its ends, that is no name. -/
structure IsOpening (a : List Char) : Prop where
  trimmed : IsTrimmed a
  chars : ∀ c ∈ a, c.isAlpha = true ∨ isBlank c = true ∨ c = '{'
  notName : ∃ c ∈ a, isPlainPart c = false

/-- Neither a letter nor an open brace is a blank. -/
theorem isBlank_of_isAlpha_or_brace (h : c.isAlpha = true ∨ c = '{') : isBlank c = false := by
  rcases h with h | rfl
  · refine isBlank_of_isPlainPart (isPlainPart_of_isNameStart ?_)
    rw [isNameStart, h]
    rfl
  · rfl

/-- Neither a blank nor an open brace goes on a name. -/
theorem isPlainPart_of_isBlank_or_brace (h : isBlank c = true ∨ c = '{') :
    isPlainPart c = false := by
  rcases h with h | rfl
  · by_contra hpart
    rw [isBlank_of_isPlainPart (Bool.eq_true_of_not_eq_false hpart)] at h
    cases h
  · rfl

/-- A text up to the first character behind its blanks; its own first character is a
blank or that one. -/
theorem exists_gap_of_skipBlanks {b : Char} {more : List Char}
    (h : skipBlanks (c :: rest) = b :: more) :
    ∃ gap, c :: rest = (gap ++ [b]) ++ more ∧ (∀ x ∈ gap, isBlank x = true) ∧ c ∈ gap ++ [b] := by
  have hsplit : c :: rest = ((c :: rest).takeWhile isBlank ++ [b]) ++ more := by
    rw [List.append_assoc, List.singleton_append, ← h]
    exact List.takeWhile_append_dropWhile.symm
  refine ⟨(c :: rest).takeWhile isBlank, hsplit, fun x hx => List.mem_takeWhile_imp hx, ?_⟩
  cases hgap : (c :: rest).takeWhile isBlank ++ [b] with
  | nil => cases List.append_eq_nil_iff.mp hgap |>.2
  | cons x gap =>
    rw [hgap] at hsplit
    rw [(List.cons.inj hsplit).1]
    exact List.mem_cons_self ..

/-- `export`, blanks, and a letter or an open brace are an opening if a blank or the
brace is there. -/
theorem isOpening_export {b : Char} {gap : List Char} (hgap : ∀ x ∈ gap, isBlank x = true)
    (hb : b.isAlpha = true ∨ b = '{') (hc : c ∈ gap ++ [b])
    (hbreak : isBlank c = true ∨ c = '{') : IsOpening ("export".toList ++ (gap ++ [b])) := by
  refine ⟨⟨List.cons_ne_nil _ _, fun x hx => ?_, fun x hx => ?_⟩, fun x hx => ?_,
    c, List.mem_append_right _ hc, isPlainPart_of_isBlank_or_brace hbreak⟩
  · cases hx
    rfl
  · rw [← List.append_assoc, List.getLast?_concat] at hx
    cases hx
    exact isBlank_of_isAlpha_or_brace hb
  · rcases List.mem_append.mp hx with hx | hx
    · have hletters : "export".toList.all Char.isAlpha = true := rfl
      exact .inl (List.all_eq_true.mp hletters x hx)
    · rcases List.mem_append.mp hx with hx | hx
      · exact .inr (.inl (hgap x hx))
      · rw [List.mem_singleton.mp hx]
        exact hb.imp_right .inr

/-- **Where an export is opened an opening stands**, up to the first character behind
the blanks. -/
theorem exists_isOpening (h : opensExport s = true) : ∃ a, a <+: s ∧ IsOpening a := by
  unfold opensExport at h
  split at h
  · rename_i c rest hexport
    rw [Bool.and_eq_true, Bool.or_eq_true, beq_iff_eq] at h
    obtain ⟨hc, h⟩ := h
    cases hskip : skipBlanks (c :: rest) with
    | nil =>
      rw [hskip] at h
      cases h
    | cons b more =>
      have hb : b.isAlpha = true ∨ b = '{' := by
        rw [hskip, Bool.or_eq_true, Bool.and_eq_true, beq_iff_eq] at h
        exact h.imp_right And.left
      obtain ⟨gap, hsplit, hgap, hmem⟩ := exists_gap_of_skipBlanks hskip
      refine ⟨_, ⟨more, ?_⟩, isOpening_export hgap hb hmem hc⟩
      rw [List.append_assoc, ← hsplit]
      exact (expect_eq_some.mp hexport).symm
  · cases h

/-! ## The items of an object literal -/

/-- An opening has none of the characters that end an item or its key. -/
theorem IsOpening.notMem (h : IsOpening a) (hc : c ∈ [',', ':', '}']) : c ∉ a := by
  intro hmem
  simp only [List.mem_cons, List.not_mem_nil, or_false] at hc
  have hchars := h.chars c hmem
  rcases hc with rfl | rfl | rfl <;> exact absurd hchars (by decide)

/-- What stands in front of a character it has not stands in front of what ends
with that character. -/
theorem isPrefix_of_isPrefix_append_cons (h : a <+: s ++ c :: rest) (hc : c ∉ a) : a <+: s := by
  have hs : s ++ [c] <+: s ++ c :: rest :=
    (List.prefix_append_right_inj s).mpr ⟨rest, rfl⟩
  rcases List.prefix_or_prefix_of_prefix h hs with hshort | hlong
  · rcases List.prefix_concat_iff.mp hshort with rfl | hprefix
    · exact absurd (List.mem_append_right s (List.mem_singleton_self c)) hc
    · exact hprefix
  · exact absurd (hlong.subset (List.mem_append_right s (List.mem_singleton_self c))) hc

/-- The key of an item that begins with an opening begins with it too. -/
theorem IsOpening.isPrefix_keyOf (h : IsOpening a) (hitem : a <+: item) :
    a <+: CommonJs.keyOf item := by
  obtain ⟨more, rfl⟩ := hitem
  have hcolon : ':' ∉ a := h.notMem (by decide)
  rw [CommonJs.keyOf, Text.cutAt_fst_append_of_notMem hcolon]
  exact h.trimmed.isPrefix_trim_append _

/-- **An item with a name for a key opens no export**, whatever stands behind the
comma or the brace that ends it. -/
theorem opensExport_item (hkey : CommonJs.isPlainName (CommonJs.keyOf item) = true)
    (hc : c = ',' ∨ c = '}') : opensExport (item ++ c :: rest) = false := by
  by_contra hopens
  obtain ⟨a, hprefix, hopening⟩ := exists_isOpening (Bool.eq_true_of_not_eq_false hopens)
  have hnotMem : c ∉ a := hopening.notMem (by rcases hc with rfl | rfl <;> decide)
  have hkeyPrefix := hopening.isPrefix_keyOf (isPrefix_of_isPrefix_append_cons hprefix hnotMem)
  obtain ⟨x, hx, hpart⟩ := hopening.notName
  rw [isPlainPart_of_isPlainName hkey x (hkeyPrefix.subset hx)] at hpart
  cases hpart

/-- A key may be the word `export` itself. -/
example : CommonJs.isPlainName (CommonJs.keyOf " export : f".toList) = true ∧
    opensExport "export : f, g".toList = false ∧ opensExport "export f, g".toList = true := by
  decide

/-- Where an item is placed: its text stands there, up to a comma or the end of the
literal. -/
theorem exists_of_mem_placed (h : (q, item) ∈ CommonJs.placed p (Text.splitOn ',' body)) :
    ∃ before after, body = before ++ (item ++ after) ∧ q = p + before.length ∧
      ∀ c ∈ after.head?, c = ',' := by
  induction body using Text.pieces_induction ',' generalizing p with
  | last a ha =>
    rw [Text.splitOn_of_notMem ha, CommonJs.placed, CommonJs.placed, List.mem_singleton] at h
    cases h
    refine ⟨[], [], (List.append_nil _).symm, rfl, fun c hc => ?_⟩
    cases hc
  | more a s ha ih =>
    rw [Text.splitOn_append_cons ha, CommonJs.placed] at h
    rcases List.mem_cons.mp h with h | h
    · cases h
      refine ⟨[], ',' :: s, rfl, rfl, fun c hc => ?_⟩
      cases hc
      rfl
    · obtain ⟨before, after, rfl, rfl, hafter⟩ := ih h
      refine ⟨a ++ ',' :: before, after, ?_, ?_, hafter⟩
      · rw [List.append_assoc, List.cons_append]
      · rw [List.length_append, List.length_cons]
        omega

/-! ## Where CommonJS declares -/

/-- No export is opened at a place of a text. -/
def Unopened (text : List Char) (p : Nat) : Prop :=
  ∃ before s, text = before ++ s ∧ p = before.length ∧ opensExport s = false

/-- ES modules declare nothing there. -/
theorem Unopened.position_ne (h : Unopened text p) (hd : d ∈ EsModule.declarations text) :
    p ≠ d.position := by
  obtain ⟨before, s, rfl, rfl, hs⟩ := h
  intro hplace
  have hmem : d ∈ EsModule.declaredAt before.length (before ++ s) :=
    List.mem_filter.mpr ⟨hd, beq_iff_eq.mpr hplace.symm⟩
  rw [EsModule.declaredAt_of_not_opens before hs] at hmem
  cases hmem

/-- A form that begins with a phrase is found where no export is opened, if none is
opened where the phrase stands. -/
theorem unopened_of_mem_occurrences {phrase : List Char → Bool}
    (hnone : ∀ {s}, phrase s = false → scan s = none)
    (hphrase : ∀ {s}, phrase s = true → opensExport s = false)
    (h : (p, found) ∈ occurrences scan text) : Unopened text p := by
  obtain ⟨before, rest, left, rfl, rfl, hfound⟩ := mem_occurrences h
  refine ⟨before, rest, rfl, rfl, hphrase ?_⟩
  by_contra hrest
  rw [hnone (Bool.eq_false_of_not_eq_true hrest)] at hfound
  cases hfound

/-- No export is opened where another word stands. -/
theorem opensExport_of_isSome_expect {word : List Char}
    (hword : ∀ t, expect "export".toList (word ++ t) = none)
    (h : (expect word s).isSome = true) : opensExport s = false := by
  obtain ⟨t, ht⟩ := Option.isSome_iff_exists.mp h
  rw [opensExport, expect_eq_some.mp ht, hword]

theorem opensExport_of_opensMember (h : opensMember s = true) : opensExport s = false := by
  rcases Bool.or_eq_true_iff.mp h with h | h
  · exact opensExport_of_isSome_expect (fun _ => rfl) h
  · -- what goes on behind `export` here is a letter
    obtain ⟨t, ht⟩ := Option.isSome_iff_exists.mp h
    rw [expect_eq_some.mp ht]
    rfl

namespace CommonJs

theorem unopened_of_mem_members (h : d ∈ members text) : Unopened text d.position := by
  rw [members_eq_flatMap] at h
  obtain ⟨r, hr, hd⟩ := List.mem_flatMap.mp h
  rw [position_of_mem_memberAt hd]
  exact unopened_of_mem_occurrences memberForm_of_not_opens opensExport_of_opensMember hr

theorem unopened_of_mem_objectKeys (h : d ∈ objectKeys text) : Unopened text d.position := by
  rw [objectKeys] at h
  split at h
  · cases h
  · rename_i position offset body hhead
    obtain ⟨⟨q, item⟩, hplaced, hd : keyDeclaration? (q, item) = some d⟩ :=
      List.mem_filterMap.mp h
    have hkey : isPlainName (keyOf item) = true := by
      by_contra hname
      rw [keyDeclaration?, if_neg hname] at hd
      cases hd
    obtain ⟨before, literal, left, rfl, rfl, hform⟩ :=
      mem_occurrences (List.mem_of_mem_head? hhead)
    obtain ⟨head, rfl, rfl⟩ := exists_of_objectForm hform
    obtain ⟨front, after, rfl, rfl, hafter⟩ := exists_of_mem_placed hplaced
    rw [eq_of_keyDeclaration? hd]
    refine ⟨before ++ ((head ++ ['{']) ++ front), item ++ (after ++ '}' :: left), ?_, ?_, ?_⟩
    · simp only [List.append_assoc]
    · simp only [List.length_append]
      omega
    · cases after with
      | nil => exact opensExport_item hkey (.inr rfl)
      | cons c after => exact opensExport_item hkey (.inl (hafter c rfl))

/-- **CommonJS declares only where no export is opened.** -/
theorem unopened_of_mem_declarations (h : d ∈ declarations text) : Unopened text d.position := by
  rw [declarations, List.mem_append, List.mem_append, List.mem_append] at h
  rcases h with ((hmember | hkey) | hwhole) | hmodel
  · exact unopened_of_mem_members hmember
  · exact unopened_of_mem_objectKeys hkey
  · obtain ⟨r, hr, rfl⟩ := List.mem_map.mp (List.mem_filter.mp hwhole).1
    exact unopened_of_mem_occurrences wholeForm_of_not_expect
      (opensExport_of_isSome_expect fun _ => rfl) hr
  · obtain ⟨r, hr, rfl⟩ := List.mem_map.mp hmodel
    exact unopened_of_mem_occurrences modelForm_of_not_expect
      (opensExport_of_isSome_expect fun _ => rfl) hr

end CommonJs

/-! ## The order of collection -/

/-- **No place of a text is declared at by both systems.** -/
theorem position_ne_of_mem_declarations (hd : d ∈ CommonJs.declarations text)
    (he : e ∈ EsModule.declarations text) : d.position ≠ e.position :=
  (CommonJs.unopened_of_mem_declarations hd).position_ne he

/-- **Which system is collected first does not matter**: with the declarations of
CommonJS in front a source text has the same exports. -/
theorem exportsOf_commonJs_append_esModule (source : List Char) :
    exportsOf (inTextOrder (CommonJs.declarations (blankComments source) ++
        EsModule.declarations (blankComments source))) =
      extract source := by
  rw [extract, declarationsOf,
    inTextOrder_append_comm fun d hd e he => position_ne_of_mem_declarations hd he]

end Source

end ExportAtlas
