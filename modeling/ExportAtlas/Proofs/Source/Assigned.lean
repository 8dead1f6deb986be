import ExportAtlas.Proofs.Text.Pieces
import ExportAtlas.Proofs.Source.Readings
/-!
# What statements assign

The value of a constant or a member is judged on the text that begins
behind the assignment; the judgement is that of the value itself, whatever
follows (`isCallable_value`, `isCallableAssignment_value`). An object
literal is read up to its closing brace, and its keys are those written
(`filterMap_placed_itemsOf`).
-/

namespace ExportAtlas

namespace Source

open Text (isBlank)

/-! ## Initializers -/

/-- The text from the blank behind an assignment. -/
def Value.tail (v : Value) (b : List Char) : List Char :=
  ' ' :: (v.text ++ (";\n".toList ++ b))

/-- A type annotation goes on behind a name. -/
theorem annotated_name (n : Identifier) (rest : List Char) :
    EsModule.annotated 0 (n.chars ++ rest) = EsModule.annotated 0 rest := by
  -- stated of any plain text: what is left of an identifier is no identifier
  have key : ∀ m : List Char, (∀ c ∈ m, isPlainPart c = true) →
      EsModule.annotated 0 (m ++ rest) = EsModule.annotated 0 rest := by
    intro m hm
    induction m with
    | nil => rfl
    | cons c m ih =>
      have hc : isPlainPart c = true := hm c (List.mem_cons_self ..)
      have hopening : EsModule.isOpening c = false :=
        forall_ascii (P := fun c => isPlainPart c = true → EsModule.isOpening c = false)
          (by decide) (toNat_lt_of_isPlainPart hc) hc
      have hclosing : EsModule.isClosing c = false :=
        forall_ascii (P := fun c => isPlainPart c = true → EsModule.isClosing c = false)
          (by decide) (toNat_lt_of_isPlainPart hc) hc
      have hassign : c ≠ '=' := ne_of_isPlainPart hc rfl
      have hsemicolon : c ≠ ';' := ne_of_isPlainPart hc rfl
      have hnewline : c ≠ '\n' := ne_of_isPlainPart hc rfl
      rw [List.cons_append, EsModule.annotated, ih fun d hd => hm d (List.mem_cons_of_mem c hd)]
      · simp only [hopening, hclosing, hassign, hsemicolon, hnewline, Bool.false_eq_true, if_false,
          false_and, or_self]
      · intro s h _
        exact hassign h
  exact key n.chars fun c hc => n.isPlainPart_of_mem hc

/-- **A constant has the initializer that is written**, behind its type if it
has one. -/
theorem initializer_closing (n : Identifier) (type? : Option Identifier) (v : Value)
    (b : List Char) :
    EsModule.initializer ((Statement.constant n type? v).closing ++ b) = some (v.tail b) := by
  have htail : " = ".toList ++ (v.text ++ ";\n".toList) ++ b = " =".toList ++ v.tail b := by
    rw [List.append_assoc, List.append_assoc]
    rfl
  cases type? with
  | none =>
    change EsModule.initializer (" = ".toList ++ (v.text ++ ";\n".toList) ++ b) = _
    rw [htail]
    rfl
  | some t =>
    have hclosing : (Statement.constant n (some t) v).closing ++ b =
        ": ".toList ++ (t.chars ++ (" =".toList ++ v.tail b)) := by
      rw [← htail, ← List.append_assoc t.chars, ← List.append_assoc]
      rfl
    have hannotated : ∀ s, EsModule.initializer (": ".toList ++ s) = EsModule.annotated 0 s :=
      fun _ => rfl
    rw [hclosing, hannotated, annotated_name]
    rfl

/-! ## Functions and integers -/

/-- An integer begins like none of the forms of a function. -/
theorem isCallable_first {c : Char} (h : c.isDigit = true ∨ c = '-') :
    isBlank c = false ∧ isNameStart c = false ∧ c ≠ '<' ∧ c ≠ '(' := by
  have hlt : c.toNat < 128 := by
    rcases h with h | rfl
    · simp only [Char.isDigit, Bool.and_eq_true, decide_eq_true_eq, UInt32.le_iff_toNat_le] at h
      exact Nat.lt_of_le_of_lt h.2 (by decide)
    · decide
  exact forall_ascii (P := fun c => c.isDigit = true ∨ c = '-' →
    isBlank c = false ∧ isNameStart c = false ∧ c ≠ '<' ∧ c ≠ '(') (by decide) hlt h

/-- A value is no function if no form of one is read at its first
character. -/
theorem orAsync_eq_false {test : List Char → Bool} {c : Char} {s : List Char} (ha : c ≠ 'a')
    (htest : test (c :: s) = false) : orAsync test (c :: s) = false := by
  have hexpect : expect "async".toList (c :: s) = none := if_neg (Ne.symm ha)
  rw [orAsync, htest, wholeWord, hexpect]
  rfl

theorem isFunctionExpression_cons_of_ne {c : Char} {s : List Char} (hf : c ≠ 'f') :
    isFunctionExpression (c :: s) = false := by
  have hexpect : expect "function".toList (c :: s) = none := if_neg (Ne.symm hf)
  rw [isFunctionExpression, wholeWord, hexpect]
  rfl

theorem isBareArrow_cons_of_not_isNameStart {c : Char} {s : List Char}
    (hc : isNameStart c = false) : isBareArrow (c :: s) = false := by
  rw [isBareArrow, name, hc, if_neg Bool.false_ne_true]

theorem expectChar_cons_of_ne {k c : Char} {s : List Char} (h : c ≠ k) :
    expectChar k (c :: s) = none := if_neg (Ne.symm h)

theorem isListArrow_cons_of_ne {c : Char} {s : List Char} (hangle : c ≠ '<') (hparen : c ≠ '(') :
    isListArrow (c :: s) = false := by
  have hpass : optionally skipTypeParameters (c :: s) = c :: s := by
    rw [optionally, skipTypeParameters, expectChar_cons_of_ne hangle]
    rfl
  rw [isListArrow, hpass, expectChar_cons_of_ne hparen]

theorem ne_of_isNameStart {c k : Char} (hk : isNameStart k = true) (hc : isNameStart c = false) :
    c ≠ k := by
  rintro rfl
  rw [hk] at hc
  cases hc

/-- **A value that begins with no name and no bracket is no function.** -/
theorem isCallable_of_skipBlanks {c : Char} {s value : List Char}
    (hskip : skipBlanks value = c :: s) (hname : isNameStart c = false) (hangle : c ≠ '<')
    (hparen : c ≠ '(') : isCallable value = false := by
  rw [isCallable, hskip]
  refine orAsync_eq_false (ne_of_isNameStart rfl hname) ?_
  rw [isFunctionExpression_cons_of_ne (ne_of_isNameStart rfl hname),
    isListArrow_cons_of_ne hangle hparen, isBareArrow_cons_of_not_isNameStart hname]
  rfl

theorem isCallableAssignment_of_skipBlanks {c : Char} {s value : List Char}
    (hskip : skipBlanks value = c :: s) (hname : isNameStart c = false) (hparen : c ≠ '(') :
    isCallableAssignment value = false := by
  rw [isCallableAssignment, hskip]
  refine orAsync_eq_false (ne_of_isNameStart rfl hname) ?_
  rw [isFunctionExpression_cons_of_ne (ne_of_isNameStart rfl hname), expectChar_cons_of_ne hparen,
    isBareArrow_cons_of_not_isNameStart hname]
  rfl

/-- The text of an integer value begins with a digit or the sign. -/
theorem skipBlanks_number (d : Numeral) (b : List Char) :
    ∃ c s, skipBlanks ((Value.number d).tail b) = c :: s ∧ (c.isDigit = true ∨ c = '-') := by
  obtain ⟨c, s, hd⟩ := d.exists_cons
  have hc : c.isDigit = true ∨ c = '-' :=
    d.isDigit_or_sign (by rw [hd]; exact List.mem_cons_self ..)
  refine ⟨c, s ++ (";\n".toList ++ b), ?_, hc⟩
  change (' ' :: (d.chars ++ (";\n".toList ++ b))).dropWhile isBlank = _
  rw [hd, List.dropWhile_cons, if_pos (by decide), List.cons_append, List.dropWhile_cons,
    (isCallable_first hc).1, if_neg Bool.false_ne_true]

/-- **An initializer is judged by what is written.** -/
theorem isCallable_value (v : Value) (b : List Char) :
    isCallable (v.tail b) = v.isFunction := by
  cases v with
  | number d =>
    -- its first character begins no form of a function; the others are read as they stand
    obtain ⟨c, s, hskip, hc⟩ := skipBlanks_number d b
    obtain ⟨-, hname, hangle, hparen⟩ := isCallable_first hc
    exact isCallable_of_skipBlanks hskip hname hangle hparen
  | _ => rfl

/-- And so is the value of a member. -/
theorem isCallableAssignment_value (v : Value) (b : List Char) :
    isCallableAssignment (v.tail b) = v.isFunction := by
  cases v with
  | number d =>
    obtain ⟨c, s, hskip, hc⟩ := skipBlanks_number d b
    obtain ⟨-, hname, -, hparen⟩ := isCallable_first hc
    exact isCallableAssignment_of_skipBlanks hskip hname hparen
  | _ => rfl

/-! ## Object literals -/

/-- What stands between the braces of an object literal. -/
def objectBody (first : Identifier) (others : List Identifier) : List Char :=
  ' ' :: (first.chars ++ (furtherKeys others ++ [' ']))

/-- No brace stands between the braces. -/
theorem ne_of_mem_objectBody {first : Identifier} {others : List Identifier} {c : Char}
    (h : c ∈ objectBody first others) : c ≠ '}' := by
  simp only [objectBody, furtherKeys, List.mem_cons, List.mem_append, List.mem_flatMap,
    List.not_mem_nil, or_false] at h
  rcases h with rfl | hfirst | ⟨k, -, hcomma | hk⟩ | rfl
  · decide
  · exact ne_of_isPlainPart (first.isPlainPart_of_mem hfirst) rfl
  · rintro rfl
    exact absurd hcomma (by decide)
  · exact ne_of_isPlainPart (k.isPlainPart_of_mem hk) rfl
  · decide

theorem objectForm_text (first : Identifier) (others : List Identifier) (b : List Char) :
    CommonJs.objectForm ((Statement.object first others).text ++ b) =
      some ((18, objectBody first others), ";\n".toList ++ b) := by
  have hform : ∀ s, CommonJs.objectForm s = (CommonJs.moduleHead s).bind fun inside =>
      (expectChar '{' inside).bind fun inside =>
        (expectChar '}' (inside.dropWhile (· != '}'))).bind fun rest =>
          if (inside.takeWhile (· != '}')).isEmpty then none
          else some ((s.length - inside.length, inside.takeWhile (· != '}')), rest) :=
    fun _ => rfl
  have hhead : ∀ s, CommonJs.moduleHead ("module.exports = \x7b".toList ++ s) = some ('{' :: s) :=
    fun _ => rfl
  have hbrace : ∀ s, expectChar '{' ('{' :: s) = some s := fun _ => rfl
  have hopening : (Statement.object first others).opening =
      "module.exports = \x7b".toList ++ [' '] := rfl
  have hclosing : (Statement.object first others).closing ++ b =
      furtherKeys others ++ ([' '] ++ ("\x7d;\n".toList ++ b)) :=
    List.append_assoc ..
  have htext : (Statement.object first others).text ++ b =
      "module.exports = \x7b".toList ++ (objectBody first others ++ ("\x7d;\n".toList ++ b)) := by
    rw [text_append, hopening, hclosing, List.append_assoc]
    simp only [objectBody, List.cons_append, List.nil_append, List.append_assoc]
    rfl
  have hbody : ∀ c ∈ objectBody first others, (c != '}') = true := fun c hc =>
    bne_iff_ne.mpr (ne_of_mem_objectBody hc)
  have htake : (objectBody first others ++ ("\x7d;\n".toList ++ b)).takeWhile (· != '}') =
      objectBody first others := by
    rw [List.takeWhile_append_of_pos hbody]
    exact List.append_nil _
  have hdrop : (objectBody first others ++ ("\x7d;\n".toList ++ b)).dropWhile (· != '}') =
      "\x7d;\n".toList ++ b := by
    rw [List.dropWhile_append_of_pos hbody]
    rfl
  have hlength : ("module.exports = \x7b".toList ++
      (objectBody first others ++ ("\x7d;\n".toList ++ b))).length -
      (objectBody first others ++ ("\x7d;\n".toList ++ b)).length = 18 := by
    rw [List.length_append]
    exact Nat.add_sub_cancel ..
  rw [htext, hform, hhead, Option.bind_some, hbrace, Option.bind_some, hlength, htake, hdrop]
  rfl

/-! ## Keys -/

/-- The items of an object literal as they are written, with the blanks
between them. -/
def itemsOf (first : Identifier) : List Identifier → List (List Char)
  | [] => [' ' :: (first.chars ++ [' '])]
  | k :: others => (' ' :: first.chars) :: itemsOf k others

/-- The declarations of keys, the first of which is written behind a blank at
position `p`. -/
def keysAt : (p : Nat) → List Identifier → List Declaration
  | _, [] => []
  | p, k :: ks => ⟨p, .function, k.name⟩ :: keysAt (p + k.chars.length + 2) ks

/-- A key holds no comma and no colon, and blanks around it are trimmed. -/
theorem notMem_item {k : Identifier} {d : Char} (hd : isPlainPart d = false) (hblank : d ≠ ' ') :
    d ∉ ' ' :: (k.chars ++ [' ']) := by
  intro h
  rcases List.mem_cons.mp h with h | h
  · exact hblank h
  · rcases List.mem_append.mp h with h | h
    · exact ne_of_isPlainPart (k.isPlainPart_of_mem h) hd rfl
    · exact hblank (List.mem_singleton.mp h)

theorem trim_item (k : Identifier) {b : List Char} (hb : ∀ c ∈ b, isBlank c = true) :
    Text.trim (' ' :: (k.chars ++ b)) = k.chars := by
  obtain ⟨c, s, hk, -⟩ := k.exists_cons
  refine Text.trim_of_not_isBlank (a := [' ']) (fun c hc => ?_) hb
    (fun c hc => isBlank_of_isPlainPart (k.isPlainPart_of_mem hc)) ?_
  · rw [List.mem_singleton.mp hc]
    rfl
  · rw [hk]
    exact List.cons_ne_nil c s

theorem keyOf_last (k : Identifier) : CommonJs.keyOf (' ' :: (k.chars ++ [' '])) = k.chars := by
  rw [CommonJs.keyOf, Text.cutAt_of_notMem (notMem_item (d := ':') rfl (by decide))]
  refine trim_item k fun c hc => ?_
  rw [List.mem_singleton.mp hc]
  rfl

theorem keyOf_inner (k : Identifier) : CommonJs.keyOf (' ' :: k.chars) = k.chars := by
  have hcolon : ':' ∉ ' ' :: k.chars := fun h =>
    notMem_item (k := k) (d := ':') rfl (by decide)
      (by rw [← List.cons_append]; exact List.mem_append_left _ h)
  have htrim := trim_item k (b := []) fun c hc => nomatch hc
  rw [List.append_nil] at htrim
  rw [CommonJs.keyOf, Text.cutAt_of_notMem hcolon, htrim]

/-- The body of an object literal is split into its items. -/
theorem splitOn_objectBody (first : Identifier) (others : List Identifier) :
    Text.splitOn ',' (objectBody first others) = itemsOf first others := by
  induction others generalizing first with
  | nil => exact Text.splitOn_of_notMem (notMem_item rfl (by decide))
  | cons k others ih =>
    have hcomma : ',' ∉ ' ' :: first.chars := fun h =>
      notMem_item (k := first) (d := ',') rfl (by decide)
        (by rw [← List.cons_append]; exact List.mem_append_left _ h)
    have hbody : objectBody first (k :: others) =
        (' ' :: first.chars) ++ ',' :: objectBody k others := by
      simp only [objectBody, furtherKeys_cons, List.append_assoc, List.cons_append]
      rfl
    rw [hbody, Text.splitOn_append_cons hcomma, ih, itemsOf]

/-- What an item of an object literal declares. -/
def keyDeclaration? (item : Nat × List Char) : Option Declaration :=
  if CommonJs.isPlainName (CommonJs.keyOf item.2) then
    some ⟨item.1, .function, String.ofList (CommonJs.keyOf item.2)⟩
  else none

theorem eq_of_keyDeclaration? {item : Nat × List Char} {d : Declaration}
    (h : keyDeclaration? item = some d) :
    d = ⟨item.1, .function, String.ofList (CommonJs.keyOf item.2)⟩ := by
  rw [keyDeclaration?] at h
  split at h
  · exact (Option.some.inj h).symm
  · cases h

theorem keyDeclaration?_of_keyOf {k : Identifier} {item : List Char} (p : Nat)
    (h : CommonJs.keyOf item = k.chars) :
    keyDeclaration? (p, item) = some ⟨p, .function, k.name⟩ := by
  rw [keyDeclaration?, h, if_pos k.isPlain]
  rfl

/-- **The keys of an object literal are those written.** -/
theorem filterMap_placed_itemsOf (p : Nat) (first : Identifier) (others : List Identifier) :
    (CommonJs.placed p (itemsOf first others)).filterMap keyDeclaration? =
      keysAt p (first :: others) := by
  induction others generalizing p first with
  | nil =>
    rw [itemsOf, CommonJs.placed, CommonJs.placed,
      List.filterMap_cons_some (keyDeclaration?_of_keyOf p (keyOf_last first))]
    rfl
  | cons k others ih =>
    rw [itemsOf, CommonJs.placed,
      List.filterMap_cons_some (keyDeclaration?_of_keyOf p (keyOf_inner first)), ih,
      List.length_cons, show p + (first.chars.length + 1) + 1 = p + first.chars.length + 2 by omega]
    rfl

end Source

end ExportAtlas
