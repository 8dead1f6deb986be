import ExportAtlas.Proofs.Source.Constants
/-!
# What a value is judged by

A value is judged as it stands and behind the word `async`. Of the forms that
begin with that word only the arrow function of a parameter `async` is told from
the value as it stands; every other form is looked for in the operand, where the
word has been passed over (`isCallable_eq`, `isCallableAssignment_eq`). So the
first character of the operand says which form is left to try
(`bracketed_operand`).
-/

namespace ExportAtlas

namespace Source

open Text (isBlank)

variable {c : Char} {s value : List Char}

/-! ## The operand -/

/-- The text of a value behind its blanks, and behind the word `async` and the
blanks that follow it if there is that word. -/
def operand (value : List Char) : List Char :=
  match wholeWord "async" (skipBlanks value) with
  | some s => skipBlanks s
  | none => skipBlanks value

theorem operand_of_async (h : wholeWord "async" (skipBlanks value) = some s) :
    operand value = skipBlanks s := by
  rw [operand, h]

theorem operand_of_none (h : wholeWord "async" (skipBlanks value) = none) :
    operand value = skipBlanks value := by
  rw [operand, h]

theorem wholeWord_eq_some {word : String} {r : List Char} :
    wholeWord word s = some r ↔ s = word.toList ++ r ∧ atWordEnd r = true := by
  have hbind : wholeWord word s =
      (expect word.toList s).bind fun t => if atWordEnd t then some t else none := rfl
  rw [hbind, Option.bind_eq_some_iff]
  constructor
  · rintro ⟨t, ht, hr⟩
    split at hr
    · rename_i hend
      obtain rfl := Option.some.inj hr
      exact ⟨expect_eq_some.mp ht, hend⟩
    · cases hr
  · rintro ⟨hs, hend⟩
    exact ⟨r, expect_eq_some.mpr hs, if_pos hend⟩

theorem atWordEnd_of_endsName (h : endsName s = true) : atWordEnd s = true := by
  cases s with
  | nil => rfl
  | cons c s => simp_all [endsName, isNamePart, atWordEnd]

theorem operand_append (lead : Blanks) (s : List Char) :
    operand (lead.chars ++ s) = operand s := by
  rw [operand, operand, lead.skipBlanks_append]

/-- The operand behind the word `async`. -/
theorem operand_async (hs : atWordEnd s = true) : operand ("async".toList ++ s) = skipBlanks s :=
  operand_of_async (wholeWord_eq_some.mpr ⟨rfl, hs⟩)

/-- A value that begins with neither a blank nor that word is its own
operand. -/
theorem operand_cons (hblank : isBlank c = false) (ha : c ≠ 'a') : operand (c :: s) = c :: s := by
  have hskip : skipBlanks (c :: s) = c :: s := by
    rw [skipBlanks, List.dropWhile_cons, hblank, if_neg Bool.false_ne_true]
  have hexpect : expect "async".toList (c :: s) = none := if_neg (Ne.symm ha)
  have hword : wholeWord "async" (skipBlanks (c :: s)) = none := by
    rw [hskip, wholeWord, hexpect]
    rfl
  rw [operand_of_none hword, hskip]

/-- **A test that the word `async` does not meet** is made on the operand; that
of a bare parameter on the value as it stands as well. -/
theorem orAsync_skipBlanks (forms : List Char → Bool) (hforms : ∀ s, forms ('a' :: s) = false)
    (value : List Char) : orAsync (fun s => forms s || isBareArrow s) (skipBlanks value) =
      (isBareArrow (skipBlanks value) ||
        (forms (operand value) || isBareArrow (operand value))) := by
  rw [orAsync]
  cases hword : wholeWord "async" (skipBlanks value) with
  | some s =>
    have hasync : forms (skipBlanks value) = false := by
      rw [(wholeWord_eq_some.mp hword).1]
      exact hforms _
    rw [operand_of_async hword, hasync, Bool.false_or]
  | none =>
    rw [operand_of_none hword]
    dsimp only
    cases forms (skipBlanks value) <;> cases isBareArrow (skipBlanks value) <;> rfl

theorem isCallable_eq (value : List Char) : isCallable value =
    (isBareArrow (skipBlanks value) ||
      (isFunctionExpression (operand value) || isListArrow (operand value) ||
        isBareArrow (operand value))) := by
  refine orAsync_skipBlanks (fun s => isFunctionExpression s || isListArrow s) (fun s => ?_) value
  rw [isFunctionExpression_cons_of_ne (by decide), isListArrow_cons_of_ne (by decide) (by decide)]
  rfl

theorem isCallableAssignment_eq (value : List Char) : isCallableAssignment value =
    (isBareArrow (skipBlanks value) ||
      (isFunctionExpression (operand value) || (expectChar '(' (operand value)).isSome ||
        isBareArrow (operand value))) := by
  refine orAsync_skipBlanks (fun s => isFunctionExpression s || (expectChar '(' s).isSome)
    (fun s => ?_) value
  rw [isFunctionExpression_cons_of_ne (by decide)]
  rfl

/-! ## Its first character -/

/-- The word `async` is no bare parameter if no arrow follows it. -/
theorem isBareArrow_async (hs : endsName s = true) (harrow : (skipBlanks s).head? ≠ some '=') :
    isBareArrow ("async".toList ++ s) = false := by
  have hname : name ("async".toList ++ s) = some ("async".toList, s) :=
    name_append (m := "sync".toList) (List.all_eq_true.mp rfl) hs
  rw [isBareArrow, hname]
  dsimp only
  cases hskip : skipBlanks s with
  | nil => rfl
  | cons c t =>
    rw [hskip, List.head?_cons] at harrow
    have hnone : expect "=>".toList (c :: t) = none :=
      if_neg fun h => harrow (congrArg some h.symm)
    rw [atArrow, hnone]
    rfl

/-- A value whose operand ends a name is no arrow function of a parameter that
is called `async`. -/
theorem isBareArrow_of_operand (hends : endsName (operand value) = true)
    (harrow : (operand value).head? ≠ some '=') : isBareArrow (skipBlanks value) = false := by
  cases hword : wholeWord "async" (skipBlanks value) with
  | none =>
    rw [operand_of_none hword] at hends
    cases hskip : skipBlanks value with
    | nil => rfl
    | cons c s =>
      refine isBareArrow_cons_of_not_isNameStart (Bool.eq_false_iff.mpr fun hc => ?_)
      have hpart := isNamePart_of_isPlainPart (isPlainPart_of_isNameStart hc)
      rw [hskip, endsName, List.head?_cons, Option.all_some, hpart] at hends
      cases hends
  | some s =>
    rw [operand_of_async hword] at hends harrow
    -- the word is the whole of the name
    have hs : endsName s = true := by
      cases s with
      | nil => rfl
      | cons c s =>
        by_cases hc : isBlank c = true
        · exact endsName_of_isBlank hc
        · rwa [skipBlanks, List.dropWhile_cons, if_neg hc] at hends
    rw [(wholeWord_eq_some.mp hword).1]
    exact isBareArrow_async hs harrow

/-- In front of a bracket only the forms that begin with a bracket are left. -/
theorem bracketed_operand (hc : c = '(' ∨ c = '<') (h : operand value = c :: s) :
    isCallable value = isListArrow (operand value) ∧
      (isCallableAssignment value = true ↔ c = '(') := by
  have hbare : isBareArrow (skipBlanks value) = false := by
    refine isBareArrow_of_operand ?_ ?_ <;> rw [h] <;> rcases hc with rfl | rfl
    · rfl
    · rfl
    · simp
    · simp
  have hname : isNameStart c = false ∧ c ≠ 'f' := by
    rcases hc with rfl | rfl <;> decide
  have hfunction : isFunctionExpression (operand value) = false := by
    rw [h]
    exact isFunctionExpression_cons_of_ne hname.2
  have hbare' : isBareArrow (operand value) = false := by
    rw [h]
    exact isBareArrow_cons_of_not_isNameStart hname.1
  rw [isCallable_eq, isCallableAssignment_eq, hbare, hfunction, hbare', h]
  simp only [Bool.false_or, Bool.or_false, true_and]
  rcases hc with rfl | rfl
  · exact iff_of_true rfl rfl
  · exact iff_of_false Bool.false_ne_true (by decide)

end Source

end ExportAtlas
