import ExportAtlas.Proofs.Source.Lines
/-!
# Which form reads which statement

Each statement is read by the one form that it is written in
(`Statement.form`): there the form finds the statement's names, and every
other form fails.
-/

namespace ExportAtlas

namespace Source

open Text (isBlank isWord)

/-- The forms that are looked for, in the order in which they are. -/
inductive Form where
  | function
  | constant
  | type
  | interface
  | classDef
  | defaultFunction
  | defaultName
  | defaultAlias
  | member
  | object
  | wholeModule
  | model
  deriving DecidableEq

/-- The form that a statement is written in. -/
def Statement.form : Statement → Form
  | function _ _ => .function
  | constant _ _ _ => .constant
  | type _ => .type
  | interface _ => .interface
  | classDef _ | abstractClass _ | defaultClass _ => .classDef
  | defaultFunction _ => .defaultFunction
  | member _ _ _ => .member
  | object _ _ => .object
  | wholeModule _ => .wholeModule
  | model _ => .model

variable {st : Statement} {b rest : List Char}

/-! ## Readers on a name -/

section Readers

variable {m : List Char}

theorem skipBlanks_plainName (hm : CommonJs.isPlainName m = true) (rest : List Char) :
    skipBlanks (m ++ rest) = m ++ rest := by
  obtain ⟨c, s, rfl, hc⟩ := exists_cons_of_isPlainName hm
  rw [skipBlanks, List.cons_append, List.dropWhile_cons,
    isBlank_of_isPlainPart (isPlainPart_of_isNameStart hc), if_neg Bool.false_ne_true]

/-- **A name is read to its end** where something ends it. -/
theorem name_append {c : Char} (hm : ∀ d ∈ m, isPlainPart d = true) (h : endsName rest = true) :
    name (c :: (m ++ rest)) = if isNameStart c then some (c :: m, rest) else none := by
  have hpart : ∀ d ∈ m, isNamePart d = true := fun d hd => isNamePart_of_isPlainPart (hm d hd)
  have hrest : rest.takeWhile isNamePart = [] ∧ rest.dropWhile isNamePart = rest := by
    cases rest with
    | nil => exact ⟨rfl, rfl⟩
    | cons d rest =>
      simp only [endsName, List.head?_cons, Option.all_some, Bool.and_eq_true,
        Bool.not_eq_true'] at h
      rw [List.takeWhile_cons, List.dropWhile_cons, h.1, if_neg Bool.false_ne_true,
        if_neg Bool.false_ne_true]
      exact ⟨rfl, rfl⟩
  rw [name, List.takeWhile_append_of_pos hpart, List.dropWhile_append_of_pos hpart, hrest.1,
    hrest.2, List.append_nil]

theorem name_plainName (hm : CommonJs.isPlainName m = true) (h : endsName rest = true) :
    name (m ++ rest) = some (m, rest) := by
  obtain ⟨c, s, rfl, hc⟩ := exists_cons_of_isPlainName hm
  rw [List.cons_append, name_append
    (fun d hd => isPlainPart_of_isPlainName hm d (List.mem_cons_of_mem c hd)) h, if_pos hc]

end Readers

section Subject

variable (n : Identifier)

theorem skipBlanks_subject (rest : List Char) :
    skipBlanks (n.chars ++ rest) = n.chars ++ rest := skipBlanks_plainName n.isPlain rest

/-- No punctuation is read where a name stands. -/
theorem expectChar_subject {k : Char} (hk : isPlainPart k = false) (rest : List Char) :
    expectChar k (n.chars ++ rest) = none := by
  obtain ⟨c, s, hn, -⟩ := n.exists_cons
  have hc : c ≠ k :=
    ne_of_isPlainPart (n.isPlainPart_of_mem (by rw [hn]; exact List.mem_cons_self ..)) hk
  rw [hn, List.cons_append, expectChar, expect, if_neg (Ne.symm hc)]

theorem name_subject (h : closes rest = true) : name (n.chars ++ rest) = some (n.chars, rest) :=
  name_plainName n.isPlain (endsName_of_closes h)

/-- A name does not end a statement. -/
theorem endOfStatement_subject : endOfStatement (' ' :: (n.chars ++ rest)) = none := by
  obtain ⟨c, s, hn, -⟩ := n.exists_cons
  have hc : isPlainPart c = true := n.isPlainPart_of_mem (by rw [hn]; exact List.mem_cons_self ..)
  have hspace : (c == ' ' || c == '\t') = false := by
    rw [Bool.or_eq_false_iff]
    exact ⟨beq_false_of_ne (ne_of_isPlainPart hc rfl), beq_false_of_ne (ne_of_isPlainPart hc rfl)⟩
  have hskip : ∀ s : List Char,
      (c :: s).dropWhile (fun d => d == ' ' || d == '\t') = c :: s := by
    intro s
    rw [List.dropWhile_cons, hspace, if_neg Bool.false_ne_true]
  have hsemi : expectChar ';' (c :: (s ++ rest)) = none := by
    rw [expectChar, expect, if_neg (Ne.symm (ne_of_isPlainPart hc rfl))]
  have hreturn : expectChar '\r' (c :: (s ++ rest)) = none := by
    rw [expectChar, expect, if_neg (Ne.symm (ne_of_isPlainPart hc rfl))]
  simp only [endOfStatement, hn, List.cons_append, optionally]
  rw [show (' ' :: c :: (s ++ rest)).dropWhile (fun d => d == ' ' || d == '\t') = c :: (s ++ rest)
    from hskip (s ++ rest), hsemi, Option.getD_none, hskip, hreturn, Option.getD_none]
  exact if_neg (ne_of_isPlainPart hc rfl)

end Subject

/-! ## Each form on the statements of the other forms -/

section Others

variable (st : Statement) (b : List Char)

theorem text_append : st.text ++ b = st.opening ++ (st.subject.chars ++ (st.closing ++ b)) := by
  rw [Statement.text, List.append_assoc, List.append_assoc]

theorem functionForm_of_form_ne (h : st.form ≠ .function) :
    EsModule.functionForm (st.text ++ b) = none := by
  rw [text_append]
  -- the opening words are enough to fail on, whatever is named
  cases st with
  | function => exact absurd rfl h
  | member viaModule n v => cases viaModule <;> rfl
  | _ => rfl

theorem constantForm_of_form_ne (h : st.form ≠ .constant) :
    EsModule.constantForm (st.text ++ b) = none := by
  rw [text_append]
  cases st with
  | constant => exact absurd rfl h
  | function isAsync n => cases isAsync <;> rfl
  | member viaModule n v => cases viaModule <;> rfl
  | _ => rfl

theorem typeForm_of_form_ne (h : st.form ≠ .type) :
    EsModule.typeForm "type" (st.text ++ b) = none := by
  rw [text_append]
  cases st with
  | type => exact absurd rfl h
  | function isAsync n => cases isAsync <;> rfl
  | member viaModule n v => cases viaModule <;> rfl
  | _ => rfl

theorem interfaceForm_of_form_ne (h : st.form ≠ .interface) :
    EsModule.typeForm "interface" (st.text ++ b) = none := by
  rw [text_append]
  cases st with
  | interface => exact absurd rfl h
  | function isAsync n => cases isAsync <;> rfl
  | member viaModule n v => cases viaModule <;> rfl
  | _ => rfl

theorem classForm_of_form_ne (h : st.form ≠ .classDef) :
    EsModule.classForm (st.text ++ b) = none := by
  rw [text_append]
  cases st with
  | classDef | abstractClass | defaultClass => exact absurd rfl h
  | function isAsync n => cases isAsync <;> rfl
  | member viaModule n v => cases viaModule <;> rfl
  | _ => rfl

theorem defaultFunctionForm_of_form_ne (h : st.form ≠ .defaultFunction) :
    EsModule.defaultFunctionForm (st.text ++ b) = none := by
  rw [text_append]
  cases st with
  | defaultFunction => exact absurd rfl h
  | function isAsync n => cases isAsync <;> rfl
  | member viaModule n v => cases viaModule <;> rfl
  | _ => rfl

theorem memberForm_of_form_ne (h : st.form ≠ .member) :
    CommonJs.memberForm (st.text ++ b) = none := by
  rw [text_append]
  cases st with
  | member => exact absurd rfl h
  | function isAsync n => cases isAsync <;> rfl
  | _ => rfl

theorem wholeForm_of_form_ne (h : st.form ≠ .wholeModule) :
    CommonJs.wholeForm (st.text ++ b) = none := by
  rw [text_append]
  cases st with
  | wholeModule => exact absurd rfl h
  | function isAsync n => cases isAsync <;> rfl
  | member viaModule n v => cases viaModule <;> rfl
  | _ => rfl

theorem modelForm_of_form_ne (h : st.form ≠ .model) :
    CommonJs.modelForm (st.text ++ b) = none := by
  rw [text_append]
  cases st with
  | model => exact absurd rfl h
  | function isAsync n => cases isAsync <;> rfl
  | member viaModule n v => cases viaModule <;> rfl
  | _ => rfl

/-- No statement is an `export default` of a name alone: behind `class` and
`function` the line goes on. -/
theorem defaultNameForm_text : EsModule.defaultNameForm (st.text ++ b) = none := by
  rw [text_append]
  cases st with
  | defaultClass n =>
    have hread : EsModule.defaultNameForm ("export default class ".toList ++
        (n.chars ++ (" {}\n".toList ++ b))) =
        (endOfStatement (' ' :: (n.chars ++ (" {}\n".toList ++ b)))).bind
          fun rest => some ("class".toList, rest) := rfl
    rw [endOfStatement_subject] at hread
    exact hread
  | defaultFunction n =>
    have hread : EsModule.defaultNameForm ("export default function ".toList ++
        (n.chars ++ ("() {}\n".toList ++ b))) =
        (endOfStatement (' ' :: (n.chars ++ ("() {}\n".toList ++ b)))).bind
          fun rest => some ("function".toList, rest) := rfl
    rw [endOfStatement_subject] at hread
    exact hread
  | function isAsync n => cases isAsync <;> rfl
  | member viaModule n v => cases viaModule <;> rfl
  | _ => rfl

/-- Nor does one export names between braces. -/
theorem defaultAliasForm_text : EsModule.defaultAliasForm (st.text ++ b) = none := by
  rw [text_append]
  cases st with
  | function isAsync n => cases isAsync <;> rfl
  | member viaModule n v => cases viaModule <;> rfl
  | _ => rfl

/-- A whole module begins like an object literal, but for the brace. -/
theorem objectForm_of_form_ne (h : st.form ≠ .object) :
    CommonJs.objectForm (st.text ++ b) = none := by
  rw [text_append]
  cases st with
  | object => exact absurd rfl h
  | wholeModule n =>
    -- the one statement whose opening words the form reads to their end
    change (expectChar '{' (skipBlanks (n.chars ++ (";\n".toList ++ b)))).bind _ = none
    rw [skipBlanks_subject, expectChar_subject n (k := '{') rfl]
    rfl
  | function isAsync n => cases isAsync <;> rfl
  | member viaModule n v => cases viaModule <;> rfl
  | _ => rfl

end Others

/-! ## Each form on the statements written in it -/

section Own

variable (n : Identifier) (b : List Char)

/-- A name behind blanks, read up to what closes the statement. -/
theorem name_skipBlanks_subject (st : Statement) :
    name (skipBlanks (st.subject.chars ++ (st.closing ++ b))) =
      some (st.subject.chars, st.closing ++ b) := by
  rw [skipBlanks_subject, name_subject _ (closes_closing st b)]

/-- The name of a function, which no star stands in front of. -/
theorem functionName_subject (st : Statement) :
    name (skipBlanks (optionally (expectChar '*')
      (skipBlanks (st.subject.chars ++ (st.closing ++ b))))) =
      some (st.subject.chars, st.closing ++ b) := by
  rw [skipBlanks_subject, optionally, expectChar_subject st.subject (k := '*') rfl,
    Option.getD_none, name_skipBlanks_subject]

theorem functionForm_text (isAsync : Bool) :
    EsModule.functionForm ((Statement.function isAsync n).text ++ b) =
      some (n.chars, (Statement.function isAsync n).closing ++ b) := by
  have hopening : ∀ s, EsModule.functionForm ((Statement.function isAsync n).opening ++ s) =
      name (skipBlanks (optionally (expectChar '*') (skipBlanks s))) := by
    intro s
    cases isAsync <;> rfl
  rw [text_append, hopening]
  exact functionName_subject b (.function isAsync n)

theorem defaultFunctionForm_text :
    EsModule.defaultFunctionForm ((Statement.defaultFunction n).text ++ b) =
      some (n.chars, (Statement.defaultFunction n).closing ++ b) := by
  have hopening : ∀ s, EsModule.defaultFunctionForm ((Statement.defaultFunction n).opening ++ s) =
      name (skipBlanks (optionally (expectChar '*') (skipBlanks s))) := fun _ => rfl
  rw [text_append, hopening]
  exact functionName_subject b (.defaultFunction n)

theorem constantForm_text (type? : Option Identifier) (v : Value) :
    EsModule.constantForm ((Statement.constant n type? v).text ++ b) =
      some ((n.chars, (Statement.constant n type? v).closing ++ b),
        (Statement.constant n type? v).closing ++ b) := by
  have hopening : ∀ s, EsModule.constantForm ((Statement.constant n type? v).opening ++ s) =
      (name (skipBlanks s)).bind fun r => some ((r.1, r.2), r.2) := fun _ => rfl
  rw [text_append, hopening, name_skipBlanks_subject]
  rfl

theorem typeForm_text :
    EsModule.typeForm "type" ((Statement.type n).text ++ b) =
      some (n.chars, (Statement.type n).closing ++ b) := by
  have hopening : ∀ s, EsModule.typeForm "type" ((Statement.type n).opening ++ s) =
      name (skipBlanks s) := fun _ => rfl
  rw [text_append, hopening]
  exact name_skipBlanks_subject b (.type n)

theorem interfaceForm_text :
    EsModule.typeForm "interface" ((Statement.interface n).text ++ b) =
      some (n.chars, (Statement.interface n).closing ++ b) := by
  have hopening : ∀ s, EsModule.typeForm "interface" ((Statement.interface n).opening ++ s) =
      name (skipBlanks s) := fun _ => rfl
  rw [text_append, hopening]
  exact name_skipBlanks_subject b (.interface n)

/-- The statement is a default class. -/
def Statement.isDefaultClass : Statement → Bool
  | defaultClass _ => true
  | _ => false

theorem classForm_text (st : Statement) (h : st.form = .classDef) :
    EsModule.classForm (st.text ++ b) =
      some ((st.isDefaultClass, st.subject.chars), st.closing ++ b) := by
  have hopening : ∀ s, EsModule.classForm (st.opening ++ s) =
      (name (skipBlanks s)).bind fun r => some ((st.isDefaultClass, r.1), r.2) := by
    intro s
    cases st with
    | classDef | abstractClass | defaultClass => rfl
    | _ => cases h
  rw [text_append, hopening, name_skipBlanks_subject]
  rfl

/-- The assignment of a member is read up to its value. -/
theorem memberForm_text (viaModule : Bool) (v : Value) :
    CommonJs.memberForm ((Statement.member viaModule n v).text ++ b) =
      some ((n.chars, ' ' :: (v.text ++ (";\n".toList ++ b))),
        ' ' :: (v.text ++ (";\n".toList ++ b))) := by
  have hopening : ∀ s, CommonJs.memberForm ((Statement.member viaModule n v).opening ++ s) =
      (name s).bind fun r => (expectChar '=' (skipBlanks r.2)).bind
        fun s => some ((r.1, s), s) := by
    intro s
    cases viaModule <;> rfl
  have hclosing : (Statement.member viaModule n v).closing ++ b =
      " = ".toList ++ (v.text ++ (";\n".toList ++ b)) := by
    change " = ".toList ++ (v.text ++ ";\n".toList) ++ b = _
    rw [List.append_assoc, List.append_assoc]
  rw [text_append, hopening, hclosing]
  change (name (n.chars ++ (" = ".toList ++ (v.text ++ (";\n".toList ++ b))))).bind
    (fun r => (expectChar '=' (skipBlanks r.2)).bind fun s => some ((r.1, s), s)) = _
  rw [name_subject n rfl]
  rfl

theorem moduleHead_opening (s : List Char) :
    CommonJs.moduleHead ("module.exports = ".toList ++ s) = some (skipBlanks s) := rfl

theorem wholeForm_text :
    CommonJs.wholeForm ((Statement.wholeModule n).text ++ b) = some (n.chars, '\n' :: b) := by
  have hform : ∀ s, CommonJs.wholeForm s = (CommonJs.moduleHead s).bind fun s =>
      (name s).bind fun r => (endOfStatement r.2).bind fun s => some (r.1, s) := fun _ => rfl
  rw [text_append, hform]
  change ((CommonJs.moduleHead ("module.exports = ".toList ++
    (n.chars ++ (";\n".toList ++ b)))).bind fun s =>
      (name s).bind fun r => (endOfStatement r.2).bind fun s => some (r.1, s)) = _
  rw [moduleHead_opening, skipBlanks_subject, Option.bind_some, name_subject n rfl]
  rfl

theorem modelForm_text :
    CommonJs.modelForm ((Statement.model n).text ++ b) = some (n.chars, ", s);\n".toList ++ b) := by
  have hopening : ∀ s, CommonJs.modelForm ("mongoose.model(\"".toList ++ s) =
      quotedName ('"' :: s) := fun _ => rfl
  have hquoted : ∀ s, quotedName ('"' :: s) =
      (name s).bind fun r => ((expectChar '"' r.2).or (expectChar '\'' r.2)).bind
        fun s => some (r.1, s) := by
    intro s
    simp only [quotedName]
    rfl
  rw [text_append]
  change CommonJs.modelForm ("mongoose.model(\"".toList ++
    (n.chars ++ ("\", s);\n".toList ++ b))) = _
  rw [hopening, hquoted, name_subject n rfl]
  rfl

end Own

end Source

end ExportAtlas
