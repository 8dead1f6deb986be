import ExportAtlas.Proofs.Source.Layout
/-!
# Extraction from programs

On a program written in the documented forms extraction is exact: the
exports are what `filed` makes of the symbols that the statements declare,
in the order of the statements (`extract_text`).

Every form is followed over the whole text by what it does on one statement
(`flatMap_occurrencesFrom_textOf`), so the declarations of a form are those
of the statements written in it, at the places where they begin. The twelve
lists are then merged into the order of the statements
(`declarationsOf_textOf`).
-/

namespace ExportAtlas

namespace Source

variable {α β : Type} {sts : List Statement}

/-! ## A scan over a whole program -/

section Walk

variable {scan : Scan α} {post : Nat × α → List β} {read : Nat → Statement → List β}

/-- What a scan does on any one statement, whatever follows it: it finds what
`read` says, and goes on at the next statement. -/
def ReadsEach (scan : Scan α) (post : Nat × α → List β) (read : Nat → Statement → List β) :
    Prop :=
  ∀ (st : Statement) (b : List Char) (p : Nat),
    (occurrencesFrom scan false 0 p (st.text ++ b)).flatMap post =
      read p st ++ (occurrencesFrom scan false 0 (p + st.text.length) b).flatMap post

/-- **What a scan finds in a program** is what it finds in each statement. -/
theorem flatMap_occurrencesFrom_textOf (h : ReadsEach scan post read) (p : Nat)
    (sts : List Statement) :
    (occurrencesFrom scan false 0 p (textOf sts)).flatMap post = readFrom read p sts := by
  induction sts generalizing p with
  | nil => rfl
  | cons st sts ih =>
    rw [textOf, List.flatMap_cons, h st _ p, readFrom]
    exact congrArg (read p st ++ ·) (ih _)

/-- A form reads each statement if it finds nothing in those of the other
forms and one thing in those written in it. -/
theorem readsEach_of_opens {f : Form} (hscan : ∀ s, opens s = false → scan s = none)
    (hnone : ∀ st b, st.form ≠ f → scan (st.text ++ b) = none ∧ ∀ p, read p st = [])
    (hsome : ∀ st b, st.form = f → ∃ z y found, st.closing = z ++ y ∧
      scan (st.text ++ b) = some (found, y ++ b) ∧ ∀ p, post (p, found) = read p st) :
    ReadsEach scan post read := by
  intro st b p
  by_cases hf : st.form = f
  · obtain ⟨z, y, found, hclosing, hread, hpost⟩ := hsome st b hf
    rw [occurrencesFrom_text_of_some isPhrase_opens hscan hclosing hread, List.flatMap_cons, hpost]
  · obtain ⟨hread, hnil⟩ := hnone st b hf
    rw [occurrencesFrom_text_of_none hscan (calm_opens_text st b) hread, hnil]
    rfl

end Walk

theorem opensExport_of_opens {s : List Char} (h : opens s = false) : opensExport s = false := by
  simp only [opens, Bool.or_eq_false_iff] at h
  exact h.1.1

theorem expect_module_of_opens {s : List Char} (h : opens s = false) :
    (expect "module.".toList s).isSome = false := by
  simp only [opens, Bool.or_eq_false_iff] at h
  exact h.1.2

theorem expect_mongoose_of_opens {s : List Char} (h : opens s = false) :
    (expect "mongoose.".toList s).isSome = false := by
  simp only [opens, Bool.or_eq_false_iff] at h
  exact h.2

/-! ## The declarations of each form -/

/-- A plain form declares each name that it finds in one role. -/
theorem declare_textOf {role : Role} {scan : Scan (List Char)} {f : Form}
    (h : ReadsEach scan (fun (p, found) => [⟨p, role, String.ofList found⟩]) (inForm f)) :
    declare role (occurrences scan (textOf sts)) = readFrom (inForm f) 0 sts := by
  rw [declare, List.map_eq_flatMap]
  exact flatMap_occurrencesFrom_textOf h 0 sts

theorem functions_textOf :
    declare .function (occurrences EsModule.functionForm (textOf sts)) =
      readFrom (inForm .function) 0 sts := by
  refine declare_textOf (readsEach_of_opens
    (fun s h => functionForm_of_not_opens (opensExport_of_opens h))
    (fun st b h => ⟨functionForm_of_form_ne st b h, inForm_of_ne h⟩) fun st b h => ?_)
  cases st with
  | function isAsync n => exact ⟨[], _, _, rfl, functionForm_text n b isAsync, fun p => rfl⟩
  | _ => cases h

theorem types_textOf :
    declare .type (occurrences (EsModule.typeForm "type") (textOf sts)) =
      readFrom (inForm .type) 0 sts := by
  refine declare_textOf (readsEach_of_opens
    (fun s h => typeForm_of_not_opens "type" (opensExport_of_opens h) rfl)
    (fun st b h => ⟨typeForm_of_form_ne st b h, inForm_of_ne h⟩) fun st b h => ?_)
  cases st with
  | type n => exact ⟨[], _, _, rfl, typeForm_text n b, fun p => rfl⟩
  | _ => cases h

theorem interfaces_textOf :
    declare .interface (occurrences (EsModule.typeForm "interface") (textOf sts)) =
      readFrom (inForm .interface) 0 sts := by
  refine declare_textOf (readsEach_of_opens
    (fun s h => typeForm_of_not_opens "interface" (opensExport_of_opens h) rfl)
    (fun st b h => ⟨interfaceForm_of_form_ne st b h, inForm_of_ne h⟩) fun st b h => ?_)
  cases st with
  | interface n => exact ⟨[], _, _, rfl, interfaceForm_text n b, fun p => rfl⟩
  | _ => cases h

theorem defaultFunctions_textOf :
    declare .defaultExport (occurrences EsModule.defaultFunctionForm (textOf sts)) =
      readFrom (inForm .defaultFunction) 0 sts := by
  refine declare_textOf (readsEach_of_opens
    (fun s h => defaultFunctionForm_of_not_opens (opensExport_of_opens h))
    (fun st b h => ⟨defaultFunctionForm_of_form_ne st b h, inForm_of_ne h⟩) fun st b h => ?_)
  cases st with
  | defaultFunction n => exact ⟨[], _, _, rfl, defaultFunctionForm_text n b, fun p => rfl⟩
  | _ => cases h

theorem defaultAliases_textOf :
    declare .defaultExport (occurrences EsModule.defaultAliasForm (textOf sts)) =
      readFrom (inForm .defaultAlias) 0 sts := by
  refine declare_textOf (readsEach_of_opens
    (fun s h => defaultAliasForm_of_not_opens (opensExport_of_opens h))
    (fun st b h => ⟨defaultAliasForm_text st b, inForm_of_ne h⟩) fun st b h => ?_)
  cases st <;> cases h

theorem models_textOf :
    declare .classDef (occurrences CommonJs.modelForm (textOf sts)) =
      readFrom (inForm .model) 0 sts := by
  refine declare_textOf (readsEach_of_opens
    (fun s h => modelForm_of_not_expect (expect_mongoose_of_opens h))
    (fun st b h => ⟨modelForm_of_form_ne st b h, inForm_of_ne h⟩) fun st b h => ?_)
  cases st with
  | model n => exact ⟨['"'], _, _, rfl, modelForm_text n b, fun p => rfl⟩
  | _ => cases h

/-- A form whose findings may be reserved words declares the others. -/
theorem declareUnreserved_textOf {role : Role} {scan : Scan (List Char)} {f : Form}
    (h : ReadsEach scan (fun (p, found) =>
      if reservedWords.contains (String.ofList found) then []
      else [⟨p, role, String.ofList found⟩]) (inForm f)) :
    declareUnreserved role (occurrences scan (textOf sts)) = readFrom (inForm f) 0 sts := by
  have hfilter : ∀ found : List (Nat × List Char), declareUnreserved role found =
      found.flatMap fun (p, found) =>
        if reservedWords.contains (String.ofList found) then []
        else [⟨p, role, String.ofList found⟩] := by
    intro found
    induction found with
    | nil => rfl
    | cons d found ih =>
      obtain ⟨p, name⟩ := d
      rw [List.flatMap_cons, ← ih, declareUnreserved, declare, List.map_cons, List.filter_cons]
      by_cases hr : reservedWords.contains (String.ofList name) = true
      · simp only [hr, Bool.not_true, Bool.false_eq_true, if_false, if_true, List.nil_append]
        rfl
      · simp only [hr, Bool.not_false, Bool.false_eq_true, if_false, if_true]
        rfl
  rw [hfilter]
  exact flatMap_occurrencesFrom_textOf h 0 sts

theorem defaultNames_textOf :
    declareUnreserved .defaultExport (occurrences EsModule.defaultNameForm (textOf sts)) =
      readFrom (inForm .defaultName) 0 sts := by
  refine declareUnreserved_textOf (readsEach_of_opens
    (fun s h => defaultNameForm_of_not_opens (opensExport_of_opens h))
    (fun st b h => ⟨defaultNameForm_text st b, inForm_of_ne h⟩) fun st b h => ?_)
  cases st <;> cases h

theorem wholeModules_textOf :
    declareUnreserved .wholeModule (occurrences CommonJs.wholeForm (textOf sts)) =
      readFrom (inForm .wholeModule) 0 sts := by
  refine declareUnreserved_textOf (readsEach_of_opens
    (fun s h => wholeForm_of_not_expect (expect_module_of_opens h))
    (fun st b h => ⟨wholeForm_of_form_ne st b h, inForm_of_ne h⟩) fun st b h => ?_)
  cases st with
  | wholeModule n =>
    refine ⟨[';'], _, _, rfl, wholeForm_text n b, fun p => if_neg ?_⟩
    rw [List.contains_iff_mem]
    exact n.notReserved
  | _ => cases h

theorem classes_textOf :
    EsModule.classes (textOf sts) = readFrom (inForm .classDef) 0 sts := by
  refine flatMap_occurrencesFrom_textOf (readsEach_of_opens
    (fun s h => classForm_of_not_opens (opensExport_of_opens h))
    (fun st b h => ⟨classForm_of_form_ne st b h, inForm_of_ne h⟩) fun st b h => ?_) 0 sts
  refine ⟨[], _, _, rfl, classForm_text b st h, fun p => ?_⟩
  cases st with
  | classDef | abstractClass | defaultClass => rfl
  | _ => cases h

theorem constants_textOf :
    EsModule.constants (textOf sts) = readFrom (inForm .constant) 0 sts := by
  rw [EsModule.constants, List.filterMap_eq_flatMap_toList]
  refine flatMap_occurrencesFrom_textOf (readsEach_of_opens
    (fun s h => constantForm_of_not_opens (opensExport_of_opens h))
    (fun st b h => ⟨constantForm_of_form_ne st b h, inForm_of_ne h⟩) fun st b h => ?_) 0 sts
  cases st with
  | constant n type? v =>
    refine ⟨[], _, _, rfl, constantForm_text n b type? v, fun p => ?_⟩
    change (Option.map _ (EsModule.initializer ((Statement.constant n type? v).closing ++ b))).toList
      = ([⟨p, if v.isFunction then .function else .constant, n.name⟩] : List Declaration)
    rw [initializer_closing, Option.map_some, isCallable_value]
    rfl
  | _ => cases h

/-- What the assignment of a member declares. -/
theorem memberDeclaration (n : Identifier) (v : Value) (viaModule : Bool) (b : List Char)
    (p : Nat) :
    (if (v.tail b).head? = some '=' then none
      else if isCallableAssignment (v.tail b) then
        some (⟨p, .function, String.ofList n.chars⟩ : Declaration)
      else if CommonJs.isConstantName n.chars then some ⟨p, .constant, String.ofList n.chars⟩
      else none).toList = inForm .member p (.member viaModule n v) := by
  have hhead : (v.tail b).head? ≠ some '=' := by
    rw [Value.tail, List.head?_cons]
    decide
  rw [if_neg hhead, isCallableAssignment_value,
    inForm_of_eq (show (Statement.member viaModule n v).form = .member from rfl)]
  change _ = (if v.isFunction then [((.function, n.name) : Role × String)]
    else if CommonJs.isConstantName n.chars then [(.constant, n.name)] else []).map _
  cases v.isFunction with
  | true => rfl
  | false => cases CommonJs.isConstantName n.chars <;> rfl

theorem members_textOf :
    CommonJs.members (textOf sts) = readFrom (inForm .member) 0 sts := by
  rw [CommonJs.members, List.filterMap_eq_flatMap_toList]
  refine flatMap_occurrencesFrom_textOf (fun st b p => ?_) 0 sts
  -- the opening `module.exports.` holds a second phrase, but only in members, which are read
  by_cases hf : st.form = .member
  · cases st with
    | member viaModule n v =>
      have hclosing : (Statement.member viaModule n v).closing =
          " =".toList ++ (' ' :: (v.text ++ ";\n".toList)) := rfl
      have htail : ' ' :: (v.text ++ ";\n".toList) ++ b = v.tail b := by
        rw [List.cons_append, List.append_assoc, Value.tail]
      have hread := memberForm_text n b viaModule v
      rw [show ' ' :: (v.text ++ (";\n".toList ++ b)) = ' ' :: (v.text ++ ";\n".toList) ++ b by
        rw [List.cons_append, List.append_assoc]] at hread
      rw [occurrencesFrom_text_of_some isPhrase_opensMember (fun s => memberForm_of_not_opens)
        hclosing hread, List.flatMap_cons, htail]
      exact congrArg (· ++ _) (memberDeclaration n v viaModule b p)
    | _ => cases hf
  · have hplain : st.isModuleMember = false := by
      cases st with
      | member viaModule n v => exact absurd rfl hf
      | _ => rfl
    rw [occurrencesFrom_text_of_none (fun s => memberForm_of_not_opens)
      (calm_opensMember_text hplain b) (memberForm_of_form_ne st b hf), inForm_of_ne hf]
    rfl

/-- Each object literal is found once, where it begins. -/
theorem readsEach_objectForm (post : Nat × (Nat × List Char) → List β)
    (read : Nat → Statement → List β)
    (hnone : ∀ st p, st.form ≠ .object → read p st = [])
    (hsome : ∀ first others p, post (p, 18, objectBody first others) =
      read p (.object first others)) : ReadsEach CommonJs.objectForm post read := by
  refine readsEach_of_opens (fun s h => objectForm_of_not_expect (expect_module_of_opens h))
    (fun st b h => ⟨objectForm_of_form_ne st b h, fun p => hnone st p h⟩) fun st b h => ?_
  cases st with
  | object first others =>
    have hclosing : (Statement.object first others).closing =
        (furtherKeys others ++ " \x7d".toList) ++ ";\n".toList := by
      rw [List.append_assoc]
      rfl
    exact ⟨_, _, _, hclosing, objectForm_text first others b, hsome first others⟩
  | _ => cases h

/-- There are as many findings as object literals. -/
theorem length_occurrences_objectForm :
    (occurrences CommonJs.objectForm (textOf sts)).length =
      (sts.filter Statement.isObject).length := by
  -- counted by reading one unit off each finding, and one off each object literal
  have hunits := flatMap_occurrencesFrom_textOf (readsEach_objectForm (fun _ => [()])
    (fun _ st => if st.isObject then [()] else [])
    (fun st p h => by cases st with
      | object first others => exact absurd rfl h
      | _ => rfl) fun first others p => rfl) 0 sts
  have hcount : ∀ (p : Nat) (sts : List Statement),
      (readFrom (fun _ st => if st.isObject then [()] else []) p sts).length =
        (sts.filter Statement.isObject).length := by
    intro p sts
    induction sts generalizing p with
    | nil => rfl
    | cons st sts ih =>
      rw [readFrom, List.length_append, ih, List.filter_cons]
      cases st.isObject with
      | false => exact Nat.zero_add _
      | true => exact Nat.add_comm _ _
  have hunit : ∀ found : List (Nat × (Nat × List Char)),
      (found.flatMap fun _ => [()]).length = found.length := by
    intro found
    rw [← List.map_eq_flatMap, List.length_map]
  rw [← hcount 0, ← hunits, hunit, occurrences]

/-- **The keys of the one object literal** are declared. -/
theorem objectKeys_textOf (hone : (sts.filter Statement.isObject).length ≤ 1) :
    CommonJs.objectKeys (textOf sts) = readFrom (inForm .object) 0 sts := by
  have hkeys := flatMap_occurrencesFrom_textOf (readsEach_objectForm
    (fun (p, offset, body) =>
      (CommonJs.placed (p + offset) (Text.splitOn ',' body)).filterMap keyDeclaration?)
    (inForm .object) (fun st p h => inForm_of_ne h p) fun first others p => by
      change (CommonJs.placed (p + 18) (Text.splitOn ',' (objectBody first others))).filterMap
        keyDeclaration? = keysAt (p + 18) (first :: others)
      rw [splitOn_objectBody, filterMap_placed_itemsOf]) 0 sts
  rw [← length_occurrences_objectForm] at hone
  rw [← hkeys, CommonJs.objectKeys]
  change _ = (occurrences CommonJs.objectForm (textOf sts)).flatMap _
  cases hfound : occurrences CommonJs.objectForm (textOf sts) with
  | nil => rfl
  | cons d found =>
    rw [hfound, List.length_cons] at hone
    -- the form declares the keys of the first finding alone, and there is no other
    have hnil : found = [] := List.eq_nil_of_length_eq_zero (by omega)
    rw [hnil, List.flatMap_singleton]
    rfl

/-! ## Merging the forms -/

/-- **The declarations of a program's text** are those of its statements, in
order. -/
theorem declarationsOf_textOf (hone : (sts.filter Statement.isObject).length ≤ 1) :
    declarationsOf (textOf sts) = readFrom (fun p st => st.declaredAt p) 0 sts := by
  -- both lists are in order, so it is enough to compare them place by place
  refine inTextOrder_eq (pairwise_readFrom 0 sts) fun x => ?_
  rw [← filter_parts x 0 sts]
  refine congrArg (List.filter fun d : Declaration => d.position == x) ?_
  rw [EsModule.declarations, CommonJs.declarations, functions_textOf, constants_textOf,
    types_textOf, interfaces_textOf, classes_textOf, defaultFunctions_textOf,
    defaultNames_textOf, defaultAliases_textOf, members_textOf, objectKeys_textOf hone,
    wholeModules_textOf, models_textOf]
  simp only [forms, List.flatMap_cons, List.flatMap_nil, List.append_nil, List.append_assoc]

/-! ## Comments -/

theorem slash_notMem_name (n : Identifier) : '/' ∉ n.chars := fun h =>
  Bool.false_ne_true (n.isPlainPart_of_mem h)

theorem slash_notMem_assignment (v : Value) : '/' ∉ " = ".toList ++ (v.text ++ ";\n".toList) := by
  have hvalue : '/' ∉ v.text := by
    cases v with
    | number d =>
      intro h
      rcases d.isDigit_or_sign h with h | h
      · cases h
      · cases h
    | _ => decide
  simp only [List.mem_append, not_or]
  exact ⟨by decide, hvalue, by decide⟩

theorem slash_notMem_closing (st : Statement) : '/' ∉ st.closing := by
  cases st with
  | constant n type? v =>
    cases type? with
    | none => exact slash_notMem_assignment v
    | some t =>
      change '/' ∉ ": ".toList ++ (t.chars ++ (" = ".toList ++ (v.text ++ ";\n".toList)))
      rw [List.mem_append, List.mem_append, not_or, not_or]
      exact ⟨by decide, slash_notMem_name t, slash_notMem_assignment v⟩
  | member viaModule n v => exact slash_notMem_assignment v
  | object first others =>
    change '/' ∉ furtherKeys others ++ " \x7d;\n".toList
    rw [List.mem_append, not_or, furtherKeys, List.mem_flatMap]
    refine ⟨?_, by decide⟩
    rintro ⟨k, -, hk⟩
    rcases List.mem_append.mp hk with h | h
    · exact absurd h (by decide)
    · exact slash_notMem_name k h
  | _ => exact of_decide_eq_true rfl

/-- No statement holds a slash, so nothing in a program reads as a comment. -/
theorem slash_notMem_text (st : Statement) : '/' ∉ st.text := by
  have hopening : '/' ∉ st.opening := by
    cases st with
    | function isAsync n => cases isAsync <;> exact of_decide_eq_true rfl
    | member viaModule n v => cases viaModule <;> exact of_decide_eq_true rfl
    | _ => exact of_decide_eq_true rfl
  rw [Statement.text, List.mem_append, List.mem_append, not_or, not_or]
  exact ⟨hopening, slash_notMem_name _, slash_notMem_closing st⟩

theorem mentionsComment_of_notMem {s : List Char} (h : '/' ∉ s) : mentionsComment s = false := by
  induction s with
  | nil => rfl
  | cons c s ih =>
    rw [List.mem_cons, not_or] at h
    rw [mentionsComment, ih h.2]
    · rintro t rfl
      exact absurd rfl h.1
    · rintro t rfl
      exact absurd rfl h.1

/-- **Extraction is exact on programs in the documented forms.** Whatever the
statements are, in whatever order, the exports are what the symbols that
they declare make when they are filed one statement after another. -/
theorem extract_text (program : Program) :
    extract program.text = filed (program.statements.flatMap Statement.declares) := by
  have hslash : '/' ∉ textOf program.statements := by
    intro h
    obtain ⟨st, -, hst⟩ := List.mem_flatMap.mp h
    exact slash_notMem_text st hst
  rw [extract, Program.text, blankComments, mentionsComment_of_notMem hslash,
    if_neg Bool.false_ne_true, exportsOf_eq_filed, declarationsOf_textOf program.oneObject,
    saying_readFrom]

end Source

end ExportAtlas
