import ExportAtlas.Proofs.Source.Places
/-!
# What a constant declares

Where a constant is found its form is the only one that reads the text, so at
its place the ES forms declare what its initializer makes of it and nothing
else (`declaredAt_constant`). A text that begins with a constant declares it
before anything else, and its name is recorded as what it is declared as
(`extract_exportConst`).
-/

namespace ExportAtlas

namespace Source

open Text (isBlank)

variable {c : Char} {m n r s text source value : List Char} {p : Nat}

/-! ## Names in any script -/

/-- A name: a letter of ASCII, an underscore or a dollar sign, and then word
characters of any script. -/
structure Name where
  chars : List Char
  isName : IsName chars

/-- The name as a string. -/
def Name.string (n : Name) : String := String.ofList n.chars

/-- A name is read to its end where something ends it. -/
theorem name_of_isName (h : IsName m) (hs : endsName s = true) : name (m ++ s) = some (m, s) := by
  obtain ⟨c, rest, rfl, hc, hrest⟩ := h
  have hends : s.takeWhile isNamePart = [] ∧ s.dropWhile isNamePart = s := by
    cases s with
    | nil => exact ⟨rfl, rfl⟩
    | cons d s =>
      have hd : ¬ isNamePart d = true := by
        simp only [endsName, List.head?_cons, Option.all_some, Bool.and_eq_true,
          Bool.not_eq_true'] at hs
        rw [hs.1]
        exact Bool.false_ne_true
      exact ⟨List.takeWhile_cons_of_neg hd, List.dropWhile_cons_of_neg hd⟩
  rw [List.cons_append, name, if_pos hc, List.takeWhile_append_of_pos hrest,
    List.dropWhile_append_of_pos hrest, hends.1, hends.2, List.append_nil]

theorem skipBlanks_of_isName (h : IsName m) (s : List Char) : skipBlanks (m ++ s) = m ++ s := by
  obtain ⟨c, rest, rfl, hc, -⟩ := h
  have hblank := isBlank_of_isPlainPart (isPlainPart_of_isNameStart hc)
  rw [skipBlanks, List.cons_append, List.dropWhile_cons, hblank, if_neg Bool.false_ne_true]

/-- A word of any script. It is a name if it begins like one. -/
structure Word where
  chars : List Char
  ne_nil : chars ≠ []
  parts : ∀ c ∈ chars, isNamePart c = true

namespace Word

variable (x : Word)

theorem exists_cons : ∃ c t, x.chars = c :: t ∧ isNamePart c = true ∧ isBlank c = false := by
  obtain ⟨c, t, hx⟩ := List.exists_cons_of_ne_nil x.ne_nil
  have hc : isNamePart c = true := x.parts c (by rw [hx]; exact List.mem_cons_self ..)
  refine ⟨c, t, hx, hc, Bool.eq_false_iff.mpr fun hblank => ?_⟩
  rw [isNamePart_of_isBlank hblank] at hc
  cases hc

theorem isName (h : x.chars.head?.any isNameStart = true) : IsName x.chars := by
  obtain ⟨c, t, hx, -⟩ := x.exists_cons
  rw [hx, List.head?_cons, Option.any_some] at h
  exact ⟨c, t, hx, h, fun d hd => x.parts d (by rw [hx]; exact List.mem_cons_of_mem c hd)⟩

theorem skipBlanks_append (s : List Char) : skipBlanks (x.chars ++ s) = x.chars ++ s := by
  obtain ⟨c, t, hx, -, hblank⟩ := x.exists_cons
  rw [hx, List.cons_append, skipBlanks, List.dropWhile_cons, hblank, if_neg Bool.false_ne_true]

end Word

/-! ## The statement -/

/-- `export const`, a name, and what follows it. -/
def exportConst (g g' : Gap) (n : Name) (s : List Char) : List Char :=
  "export".toList ++ (g.chars ++ ("const".toList ++ (g'.chars ++ (n.chars ++ s))))

/-- **The form of a constant** reads the name, and leaves what follows it. -/
theorem constantForm_exportConst (g g' : Gap) (n : Name) (hs : endsName s = true) :
    EsModule.constantForm (exportConst g g' n s) = some ((n.chars, s), s) := by
  have hform : EsModule.constantForm (exportConst g g' n s) =
      (EsModule.exportHead (exportConst g g' n s)).bind fun t => (keyword "const" t).bind fun u =>
        (name u).bind fun r => some ((r.1, r.2), r.2) := rfl
  have hhead : EsModule.exportHead (exportConst g g' n s) =
      some ("const".toList ++ (g'.chars ++ (n.chars ++ s))) := g.keyword_append "export" _
  rw [hform, hhead, Option.bind_some, g'.keyword_append, Option.bind_some,
    skipBlanks_of_isName n.isName, name_of_isName n.isName hs]
  rfl

/-! ## The other forms -/

/-- Behind `export` and blanks a constant has the word `const`. -/
theorem exists_exportHead_of_constantForm {found : List Char × List Char}
    (h : EsModule.constantForm s = some (found, r)) :
    ∃ t, EsModule.exportHead s = some ("const".toList ++ t) := by
  obtain ⟨t, ht, h⟩ := Option.bind_eq_some_iff.mp h
  obtain ⟨u, hu, -⟩ := Option.bind_eq_some_iff.mp h
  obtain ⟨v, hv, -⟩ := Option.bind_eq_some_iff.mp hu
  exact ⟨v, by rw [ht, expect_eq_some.mp hv]⟩

/-- **Where a constant stands, no other form reads the text.** -/
structure OnlyConstant (s : List Char) : Prop where
  function : EsModule.functionForm s = none
  type : EsModule.typeForm "type" s = none
  interface : EsModule.typeForm "interface" s = none
  classDef : EsModule.classForm s = none
  defaultFunction : EsModule.defaultFunctionForm s = none
  defaultName : EsModule.defaultNameForm s = none
  defaultAlias : EsModule.defaultAliasForm s = none
  member : CommonJs.memberForm s = none
  object : CommonJs.objectForm s = none
  wholeModule : CommonJs.wholeForm s = none
  model : CommonJs.modelForm s = none

theorem onlyConstant_of_constantForm {found : List Char × List Char}
    (h : EsModule.constantForm s = some (found, r)) : OnlyConstant s := by
  obtain ⟨t, ht⟩ := exists_exportHead_of_constantForm h
  have hbind : ∀ {α : Type} {f : List Char → Option α},
      f ("const".toList ++ t) = none → (EsModule.exportHead s).bind f = none := by
    intro α f hf
    rw [ht, Option.bind_some, hf]
  -- the word `export` with a blank behind it opens no brace and no member
  obtain ⟨u, hu, hblanks⟩ := Option.bind_eq_some_iff.mp ht
  obtain rfl := expect_eq_some.mp hu
  cases u with
  | nil => cases hblanks
  | cons c u =>
    rw [someBlanks] at hblanks
    split at hblanks
    · rename_i hc
      have hskip : skipBlanks (c :: u) = "const".toList ++ t := by
        rw [skipBlanks, List.dropWhile_cons, if_pos hc]
        exact Option.some.inj hblanks
      have hbrace : EsModule.defaultAliasForm ("export".toList ++ c :: u) = none := by
        change (expectChar '\x7b' (skipBlanks (c :: u))).bind _ = none
        rw [hskip]
        rfl
      have hmember : CommonJs.memberForm ("export".toList ++ c :: u) = none :=
        memberForm_of_not_opens
          (opensMember_of_endsName (List.all_eq_true.mp rfl) (endsName_of_isBlank hc))
      exact ⟨hbind rfl, hbind rfl, hbind rfl, hbind rfl, hbind rfl, hbind rfl, hbrace, hmember,
        rfl, rfl, rfl⟩
    · cases hblanks

/-! ## The declaration -/

/-- **At the place of a constant** the ES forms declare the constant, if it has
an initializer, and nothing else. -/
theorem declaredAt_constant {rest : List Char}
    (h : (p, n, rest) ∈ occurrences EsModule.constantForm text) :
    EsModule.declaredAt p text = constantAt p n rest := by
  obtain ⟨before, s, left, rfl, rfl, hform⟩ := mem_occurrences h
  have honly := onlyConstant_of_constantForm hform
  have hconstants : (EsModule.constants (before ++ s)).filter
      (fun d => d.position == before.length) = constantAt before.length n rest := by
    rw [filter_constants, filter_occurrences_of_mem h, List.flatMap_singleton]
  simp only [EsModule.declaredAt, EsModule.declarations, List.filter_append, hconstants,
    filter_classes_of_none before honly.classDef,
    filter_declare_of_none _ before honly.function, filter_declare_of_none _ before honly.type,
    filter_declare_of_none _ before honly.interface,
    filter_declare_of_none _ before honly.defaultFunction,
    filter_declareUnreserved_of_none _ before honly.defaultName,
    filter_declare_of_none _ before honly.defaultAlias, List.nil_append, List.append_nil]

/-! ## At the front of a text -/

theorem mem_occurrences_exportConst (g g' : Gap) (n : Name) (hs : endsName s = true) :
    (0, n.chars, s) ∈ occurrences EsModule.constantForm (exportConst g g' n s) :=
  mem_occurrences_front (constantForm_exportConst g g' n hs)

/-- **A constant at the front of a text is declared first.** -/
theorem declarationsOf_exportConst (g g' : Gap) (n : Name) (hs : endsName s = true) :
    ∃ later, declarationsOf (exportConst g g' n s) = constantAt 0 n.chars s ++ later := by
  have honly := onlyConstant_of_constantForm (constantForm_exportConst g g' n hs)
  have hmembers : (CommonJs.members (exportConst g g' n s)).filter
      (fun d => d.position == 0) = [] := by
    have hnone := filter_occurrences_of_none [] honly.member
    rw [List.nil_append, List.length_nil] at hnone
    rw [filter_members, hnone]
    rfl
  obtain ⟨later, hlater⟩ := declarationsOf_eq_append honly.wholeModule honly.model
  rw [declaredAt_constant (mem_occurrences_exportConst g g' n hs), hmembers,
    List.append_nil] at hlater
  exact ⟨later, hlater⟩

/-- A name that is declared first is recorded as what it is declared as. -/
theorem mem_namesFirst_saying {d : Declaration} (hd : d.role.isValue = true)
    (later : List Declaration) :
    d.name ∈ namesFirst d.role ((d :: later).map Declaration.saying) := by
  have hfirst : (d.saying.1.isValue && d.saying.2 == d.name) = true := by
    rw [Bool.and_eq_true]
    exact ⟨hd, beq_self_eq_true d.name⟩
  rw [mem_namesFirst, firstValueRole?, List.map_cons, List.find?_cons, hfirst]
  rfl

/-- **A value that is declared first** is recorded as what it is declared as,
and as nothing else. -/
theorem extract_of_first {d : Declaration} {later : List Declaration}
    (hd : d.role.isValue = true) (h : declarationsOf (blankComments source) = d :: later) :
    (d.name ∈ (extract source).functions ↔ d.role = .function) ∧
      (d.name ∈ (extract source).constants ↔ d.role = .constant) := by
  have hfiled : extract source = filed ((d :: later).map Declaration.saying) := by
    rw [extract, h, exportsOf_eq_filed]
  have hmem := mem_namesFirst_saying hd later
  have hdisjoint := disjoint_namesFirst ((d :: later).map Declaration.saying)
  rw [hfiled]
  dsimp only [filed]
  cases hrole : d.role with
  | function =>
    rw [hrole] at hmem
    exact ⟨iff_of_true hmem rfl, iff_of_false (hdisjoint hmem) (by simp)⟩
  | constant =>
    rw [hrole] at hmem
    exact ⟨iff_of_false (fun hfunction => hdisjoint hfunction hmem) (by simp), iff_of_true hmem rfl⟩
  | _ =>
    rw [hrole] at hd
    cases hd

/-- **A constant at the front of a source** is recorded as a function if its
initializer reads as one, and otherwise as a constant; never as both. -/
theorem extract_exportConst (g g' : Gap) (n : Name) (hs : endsName s = true)
    (hsource : blankComments source = exportConst g g' n s)
    (hvalue : EsModule.initializer s = some value) :
    (n.string ∈ (extract source).functions ↔ isCallable value = true) ∧
      (n.string ∈ (extract source).constants ↔ isCallable value = false) := by
  obtain ⟨later, hlater⟩ := declarationsOf_exportConst g g' n hs
  rw [← hsource, constantAt, hvalue] at hlater
  have hrecorded := extract_of_first (isValue_valueRole value) hlater
  rwa [valueRole_eq_function, valueRole_eq_constant] at hrecorded

end Source

end ExportAtlas
