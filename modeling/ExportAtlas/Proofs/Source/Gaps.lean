import ExportAtlas.Proofs.Source.Narrowed
import ExportAtlas.Proofs.Source.Opening
/-!
# Forms with narrow gaps

Every form finds in the narrowed text what it finds in the text, and what
reads as a function does so in both (`isCallable_narrowed`). Only an object
literal is found with the place of its body, which is the place that the
body has in the narrowed text (`objectForm_narrowed`).
-/

namespace ExportAtlas

namespace Source

/-! ## Forms of ES modules -/

section EsModule

open EsModule

theorem reads_exportHead : ReadsNarrowed exportHead := reads_keyword "export" (by decide)

theorem reads_async : ReadsNarrowed (keyword "async") := reads_keyword "async" (by decide)

theorem reads_declare : ReadsNarrowed (keyword "declare") := reads_keyword "declare" (by decide)

theorem reads_default : ReadsNarrowed (keyword "default") := reads_keyword "default" (by decide)

theorem scans_functionName : ScansNarrowed id functionName :=
  ((scans_name.behind passes_skipBlanks).behind
    ((reads_expectChar '*' (by decide)).optionally.comp passes_skipBlanks)).bind
    (reads_expect "function".toList (by decide))

theorem scans_functionForm : ScansNarrowed id functionForm :=
  (scans_functionName.behind reads_async.optionally).bind reads_exportHead

theorem scans_constantForm : ScansNarrowed (Prod.map id narrowed) constantForm := by
  have hname := scans_name.andThen (Prod.map id narrowed)
    (fun x => some ((x.1, x.2), x.2)) (fun x => rfl) fun x y h => by
      rw [← Option.some.inj h]
  exact (hname.bind (reads_keyword "const" (by decide))).bind reads_exportHead

theorem scans_typeForm (word : String) (h : ' ' ∉ word.toList) :
    ScansNarrowed id (typeForm word) :=
  ((scans_name.bind (reads_keyword word h)).behind reads_declare.optionally).bind
    reads_exportHead

/-- Whether `default` stands in front of a class is told by the narrowed text
as well. -/
theorem scans_classForm : ScansNarrowed id classForm := by
  have hclass : ∀ isDefault : Bool, ScansNarrowed id fun s =>
      (keyword "class" (optionally (keyword "abstract") (optionally (keyword "declare")
        (optionally (keyword "default") s)))).bind
        fun s => (name s).bind fun r => some ((isDefault, r.1), r.2) := fun isDefault =>
    ((((scans_name.andThen id (fun r => some ((isDefault, r.1), r.2)) (fun _ => rfl)
      fun x y h => by rw [← Option.some.inj h]).bind (reads_keyword "class" (by decide))).behind
        (reads_keyword "abstract" (by decide)).optionally).behind
          reads_declare.optionally).behind reads_default.optionally
  have hrest : ScansNarrowed id fun s =>
      (keyword "class" (optionally (keyword "abstract") (optionally (keyword "declare")
        (optionally (keyword "default") s)))).bind fun t => (name t).bind
          fun r => some (((keyword "default" s).isSome, r.1), r.2) := by
    refine ⟨fun s => ?_, fun s x h => (hclass _).leaves s x h⟩
    rw [reads_default.isSome s]
    exact (hclass _).narrowed s
  exact hrest.bind reads_exportHead

theorem scans_defaultFunctionForm : ScansNarrowed id defaultFunctionForm :=
  ((scans_functionName.behind reads_async.optionally).bind
    reads_default).bind reads_exportHead

theorem scans_defaultNameForm : ScansNarrowed id defaultNameForm :=
  ((scans_name.before reads_endOfStatement).bind reads_default).bind reads_exportHead

theorem scans_aliasAt (before : Char) : ScansNarrowed id (aliasAt before) := by
  have hname : ScansNarrowed id fun s => (name s).bind fun r => (someBlanks r.2).bind fun t =>
      (keyword "as" t).bind fun t => (wholeWord "default" t).bind fun t => some (r.1, t) := by
    simpa only [Option.bind_assoc] using scans_name.before (reads_someBlanks.bind
      ((reads_keyword "as" (by decide)).bind (reads_wholeWord "default" (by decide))))
  refine ⟨fun s => ?_, fun s x h => ?_⟩
  · rw [aliasAt, aliasAt, atWordEnd_narrowed]
    split
    · exact hname.narrowed s
    · rfl
  · rw [aliasAt] at h
    split at h
    · exact hname.leaves s x h
    · cases h

/-- No alias begins with a space. -/
theorem aliasAt_space (before : Char) (s : List Char) : aliasAt before (' ' :: s) = none := by
  rw [aliasAt]
  split <;> rfl

/-- So where a space stands, it does not matter what stands in front of it. -/
theorem findAlias_space (before : Char) (s : List Char) :
    findAlias before (' ' :: s) = findAlias ' ' s := by
  rw [findAlias, aliasAt_space, Option.none_or, if_neg (by decide)]

theorem scans_findAlias (before : Char) : ScansNarrowed id (findAlias before) := by
  refine ⟨fun s => ?_, fun s => ?_⟩
  · fun_induction narrowed s generalizing before with
    | case1 => rfl
    | case2 c s h ih =>
      obtain ⟨rfl, hs⟩ := h
      obtain ⟨r, rfl⟩ := List.head?_eq_some_iff.mp hs
      rw [findAlias_space, ih, findAlias_space, findAlias_space]
    | case3 c s h ih =>
      rw [findAlias, findAlias, ih, ← narrowed_cons h, (scans_aliasAt before).narrowed,
        Option.map_or]
      split <;> rfl
  · induction s generalizing before with
    | nil =>
      intro x h
      cases h
    | cons c s ih =>
      intro x h
      rw [findAlias, Option.or_eq_some_iff] at h
      rcases h with h | ⟨-, h⟩
      · exact (scans_aliasAt before).leaves _ x h
      · split at h
        · cases h
        · exact (ih c x h).trans (List.suffix_cons c s)

theorem scans_defaultAliasForm : ScansNarrowed id defaultAliasForm :=
  (((scans_findAlias '{').bind (reads_expectChar '{' (by decide))).behind
    passes_skipBlanks).bind (reads_expect "export".toList (by decide))

end EsModule

/-! ## Forms of CommonJS modules -/

section CommonJs

open CommonJs

theorem scans_memberForm : ScansNarrowed (Prod.map id narrowed) memberForm := by
  have hname : ScansNarrowed (Prod.map id narrowed) fun s => (name s).bind fun r =>
      (expectChar '=' (skipBlanks r.2)).bind fun t => some ((r.1, t), t) := by
    have hassign := (reads_expectChar '=' (by decide)).behind passes_skipBlanks
    refine scans_name.andThen _ _ (fun x => ?_) fun x y h => ?_
    · rw [Prod.map_snd, hassign.narrowed, Option.bind_map, Option.map_bind]
      rfl
    · obtain ⟨t, ht, hy⟩ := Option.bind_eq_some_iff.mp h
      rw [← Option.some.inj hy]
      exact hassign.leaves x.2 t ht
  exact (hname.bind (reads_expect "exports.".toList (by decide))).behind
    (reads_expect "module.".toList (by decide)).optionally

theorem reads_moduleHead : ReadsNarrowed moduleHead := by
  have hassign := passes_skipBlanks.after
    ((reads_expectChar '=' (by decide)).behind passes_skipBlanks)
  exact (reads_expect "module.exports".toList (by decide)).bind hassign

theorem scans_wholeForm : ScansNarrowed id wholeForm :=
  (scans_name.before reads_endOfStatement).bind reads_moduleHead

theorem scans_modelForm : ScansNarrowed id modelForm := by
  have hquoted : ScansNarrowed id fun s => (expectChar '(' (skipBlanks s)).bind
      fun t => quotedName (skipBlanks t) :=
    ((scans_quotedName.behind passes_skipBlanks).bind
      (reads_expectChar '(' (by decide))).behind passes_skipBlanks
  have hargument : ReadsNarrowed fun s => (expectChar '<' s).bind (skipPast '>') :=
    (reads_expectChar '<' (by decide)).bind (reads_skipPast '>' (by decide))
  exact ((hquoted.behind hargument.optionally).behind passes_skipBlanks).bind
    (reads_expect "mongoose.model".toList (by decide))

/-- What is left behind the brace of an object literal begins right behind
it. -/
theorem exists_of_moduleHead_brace {s inside : List Char}
    (h : (moduleHead s).bind (expectChar '{') = some inside) :
    ∃ head, s = (head ++ ['{']) ++ inside := by
  obtain ⟨t, ht, hinside⟩ := Option.bind_eq_some_iff.mp h
  obtain ⟨head, rfl⟩ := leaves_moduleHead s t ht
  have hbrace : t = '{' :: inside := expect_eq_some.mp hinside
  exact ⟨head, by rw [hbrace, ← List.append_cons]⟩

theorem objectForm_eq_bind (s : List Char) :
    objectForm s = ((moduleHead s).bind (expectChar '{')).bind fun inside =>
      (expectChar '}' (inside.dropWhile (· != '}'))).bind fun rest =>
        if (inside.takeWhile (· != '}')).isEmpty then none
        else some ((s.length - inside.length, inside.takeWhile (· != '}')), rest) := by
  rw [Option.bind_assoc]
  rfl

/-- Where an object literal is found: what stands up to its opening brace, and
what between the braces. -/
theorem exists_of_objectForm {s left body : List Char} {offset : Nat}
    (h : objectForm s = some ((offset, body), left)) :
    ∃ head, s = (head ++ ['{']) ++ (body ++ '}' :: left) ∧ offset = (head ++ ['{']).length := by
  rw [objectForm_eq_bind] at h
  obtain ⟨inside, hinside, h⟩ := Option.bind_eq_some_iff.mp h
  obtain ⟨rest, hrest, h⟩ := Option.bind_eq_some_iff.mp h
  obtain ⟨head, hs⟩ := exists_of_moduleHead_brace hinside
  split at h
  · cases h
  · cases h
    have hbody := List.takeWhile_append_dropWhile (p := (· != '}')) (l := inside)
    rw [expect_eq_some.mp hrest, List.singleton_append] at hbody
    refine ⟨head, by rw [hbody, hs], ?_⟩
    rw [hs, List.length_append, Nat.add_sub_cancel]

/-- An object literal is found with its body narrowed, at its place in the
narrowed text. -/
theorem objectForm_narrowed (s : List Char) :
    objectForm (narrowed s) = (objectForm s).map fun x =>
      ((narrowedPlace s x.1.1, narrowed x.1.2), narrowed x.2) := by
  have hopen := reads_moduleHead.bind (reads_expectChar '{' (by decide))
  have hrest := (reads_expectChar '}' (by decide)).behind
    (passes_dropWhile fun c => c != '}')
  rw [objectForm_eq_bind, objectForm_eq_bind, hopen.narrowed, Option.bind_map, Option.map_bind]
  refine Option.bind_congr fun inside hinside => ?_
  rw [Function.comp_apply, hrest.narrowed, Option.bind_map, Function.comp_apply, Option.map_bind]
  refine Option.bind_congr fun rest _ => ?_
  rw [Function.comp_apply, Function.comp_apply, takeWhile_narrowed, isEmpty_narrowed]
  split
  · rfl
  · obtain ⟨head, rfl⟩ := exists_of_moduleHead_brace hinside
    rw [Option.map_some, narrowed_append (apart_concat (by decide) head inside),
      List.length_append, List.length_append, Nat.add_sub_cancel, Nat.add_sub_cancel,
      narrowedPlace_append]

/-- And it leaves an end of the text. -/
theorem objectForm_leaves (s : List Char) (x : (Nat × List Char) × List Char)
    (h : objectForm s = some x) : x.2 <:+ s := by
  obtain ⟨⟨offset, body⟩, left⟩ := x
  obtain ⟨head, rfl, -⟩ := exists_of_objectForm h
  exact ((List.suffix_cons '}' left).trans (List.suffix_append _ _)).trans
    (List.suffix_append _ _)

end CommonJs

/-! ## Values -/

section Values

open EsModule

theorem atArrow_narrowed (s : List Char) : atArrow (narrowed s) = atArrow s :=
  (reads_expect "=>".toList (by decide)).isSome s

theorem isFunctionExpression_narrowed (s : List Char) :
    isFunctionExpression (narrowed s) = isFunctionExpression s :=
  (reads_wholeWord "function" (by decide)).isSome s

theorem isBareArrow_narrowed (s : List Char) : isBareArrow (narrowed s) = isBareArrow s := by
  rw [isBareArrow, isBareArrow, scans_name.narrowed]
  cases name s with
  | none => rfl
  | some x =>
    dsimp only [Option.map_some, Prod.map]
    rw [passes_skipBlanks.narrowed, atArrow_narrowed]

theorem reads_skipTypeParameters : ReadsNarrowed skipTypeParameters :=
  (reads_expectChar '<' (by decide)).bind (passes_skipBlanks.after (reads_skipPast '>' (by decide)))

theorem isListArrow_narrowed (s : List Char) : isListArrow (narrowed s) = isListArrow s := by
  rw [isListArrow, isListArrow, reads_skipTypeParameters.optionally.narrowed,
    (reads_expectChar '(' (by decide)).narrowed]
  cases expectChar '(' (optionally skipTypeParameters s) with
  | none => rfl
  | some s =>
    dsimp only [Option.map_some]
    rw [(reads_skipPast ')' (by decide)).narrowed]
    cases skipPast ')' s with
    | none => rfl
    | some s =>
      dsimp only [Option.map_some]
      rw [passes_skipBlanks.narrowed, atArrow_narrowed, (reads_expectChar ':' (by decide)).narrowed]
      cases expectChar ':' (skipBlanks s) with
      | none => rfl
      | some s =>
        dsimp only [Option.map_some]
        rw [dropWhile_narrowed, atArrow_narrowed]

theorem orAsync_narrowed {test : List Char → Bool} (htest : ∀ s, test (narrowed s) = test s)
    (s : List Char) : orAsync test (narrowed s) = orAsync test s := by
  rw [orAsync, orAsync, htest, (reads_wholeWord "async" (by decide)).narrowed]
  cases wholeWord "async" s with
  | none => rfl
  | some s =>
    dsimp only [Option.map_some]
    rw [passes_skipBlanks.narrowed, htest]

/-- **What reads as a function does so however wide its gaps are.** -/
theorem isCallable_narrowed (value : List Char) :
    isCallable (narrowed value) = isCallable value := by
  rw [isCallable, isCallable, passes_skipBlanks.narrowed]
  exact orAsync_narrowed (fun s => by
    rw [isFunctionExpression_narrowed, isListArrow_narrowed, isBareArrow_narrowed]) _

theorem isCallableAssignment_narrowed (value : List Char) :
    isCallableAssignment (narrowed value) = isCallableAssignment value := by
  rw [isCallableAssignment, isCallableAssignment, passes_skipBlanks.narrowed]
  exact orAsync_narrowed (fun s => by
    rw [isFunctionExpression_narrowed, (reads_expectChar '(' (by decide)).isSome,
      isBareArrow_narrowed]) _

/-- An annotation is read one character at a time but for the arrow. -/
theorem annotated_cons {c : Char} {s : List Char} (depth : Nat)
    (h : ¬ (c = '=' ∧ s.head? = some '>')) :
    annotated depth (c :: s) =
      if isOpening c then annotated (depth + 1) s
      else if isClosing c then annotated (depth - 1) s
      else if c = '=' ∧ depth = 0 then some s
      else if (c = ';' ∨ c = '\n') ∧ depth = 0 then none
      else annotated depth s := by
  rw [annotated]
  rintro rest rfl rfl
  exact h ⟨rfl, rfl⟩

theorem annotated_narrowed (depth : Nat) (s : List Char) :
    annotated depth (narrowed s) = (annotated depth s).map narrowed := by
  induction s using narrowed.induct generalizing depth with
  | case1 => rfl
  | case2 c s h ih =>
    rw [narrowed, if_pos h, ih]
    obtain ⟨rfl, hs⟩ := h
    rw [annotated_cons depth (by simp)]
    rfl
  | case3 c s h ih =>
    rw [narrowed_cons h]
    by_cases harrow : c = '=' ∧ s.head? = some '>'
    · obtain ⟨rfl, hs⟩ := harrow
      obtain ⟨r, rfl⟩ := List.head?_eq_some_iff.mp hs
      -- passing over the arrow is closing a bracket more
      have hclose : ∀ t, annotated depth ('=' :: '>' :: t) = annotated (depth + 1) ('>' :: t) := by
        intro t
        rw [annotated, annotated_cons _ (by simp)]
        rfl
      rw [hclose, ← ih, narrowed_cons_of_ne (by decide), hclose]
    · rw [annotated_cons depth harrow, annotated_cons depth (by rwa [head?_narrowed]), ih, ih, ih]
      split_ifs <;> rfl

theorem initializer_narrowed (rest : List Char) :
    initializer (narrowed rest) = (initializer rest).map narrowed := by
  rw [initializer, initializer, passes_skipBlanks.narrowed]
  cases skipBlanks rest with
  | nil => rfl
  | cons c s =>
    by_cases hassign : c = '='
    · subst hassign
      rw [narrowed_cons_of_ne (by decide)]
      cases s with
      | nil => rfl
      | cons d s =>
        obtain ⟨t, ht⟩ := exists_narrowed_cons d s
        rw [ht]
        by_cases heq : d = '='
        · subst heq
          rfl
        · by_cases harrow : d = '>'
          · subst harrow
            rfl
          · simp [heq, harrow, ht]
    · by_cases hcolon : c = ':'
      · subst hcolon
        rw [narrowed_cons_of_ne (by decide)]
        exact annotated_narrowed 0 s
      · obtain ⟨t, ht⟩ := exists_narrowed_cons c s
        rw [ht]
        simp [hassign, hcolon]

end Values

/-! ## Keys -/

section Keys

open CommonJs

theorem splitOn_narrowed {sep : Char} (hsep : sep ≠ ' ') (s : List Char) :
    Text.splitOn sep (narrowed s) = (Text.splitOn sep s).map narrowed := by
  induction s using Text.pieces_induction sep with
  | last a h =>
    rw [Text.splitOn_of_notMem h, Text.splitOn_of_notMem (mt mem_narrowed.mp h)]
    rfl
  | more a s h ih =>
    rw [narrowed_append (apart_cons hsep a s), narrowed_cons_of_ne hsep,
      Text.splitOn_append_cons (mt mem_narrowed.mp h), Text.splitOn_append_cons h, ih,
      List.map_cons]

theorem trim_narrowed (s : List Char) : Text.trim (narrowed s) = narrowed (Text.trim s) := by
  rw [Text.trim, Text.trim, Text.trimRight, Text.trimRight, Text.trimLeft, Text.trimLeft,
    dropWhile_narrowed, ← narrowed_reverse, dropWhile_narrowed, ← narrowed_reverse]

theorem keyOf_narrowed (item : List Char) : keyOf (narrowed item) = narrowed (keyOf item) := by
  rw [keyOf, keyOf, Text.cutAt_fst, Text.cutAt_fst, takeWhile_narrowed, trim_narrowed]

/-- A plain name holds no space. -/
theorem notMem_of_isPlainName {key : List Char} (h : isPlainName key = true) : ' ' ∉ key := by
  obtain ⟨c, rest, rfl, hc, hrest⟩ := isName_of_isPlainName h
  intro hmem
  rcases List.mem_cons.mp hmem with rfl | hmem
  · cases hc
  · exact (ne_blank_of_isNamePart (hrest ' ' hmem)).1 rfl

/-- So a key with a gap is none, however wide the gap is. -/
theorem isPlainName_narrowed (key : List Char) : isPlainName (narrowed key) = isPlainName key := by
  by_cases hkey : ' ' ∈ key
  · rw [Bool.eq_false_iff.mpr fun h => notMem_of_isPlainName h hkey,
      Bool.eq_false_iff.mpr fun h => notMem_of_isPlainName h (mem_narrowed.mpr hkey)]
  · rw [narrowed_of_notMem hkey]

end Keys

end Source

end ExportAtlas
