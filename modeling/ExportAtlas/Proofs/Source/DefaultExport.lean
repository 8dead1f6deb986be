import ExportAtlas.Proofs.Source.AfterDefault
/-!
# The default export of one statement

What the forms of a default export make of a name (`defaultExport_text`): the
name itself, but for two slips. Of a name that begins with `function` only
the rest is read behind `export default`. And an alias is looked for at word
boundaries, of which there is none in front of a `$` behind a blank
(`nameWithin`).
-/

namespace ExportAtlas

namespace Source

open Text (isBlank isWord)

variable {c : Char} {m r s : List Char}

/-! ## Names at a word boundary -/

/-- The first name of a text that begins at a word boundary, where `before` is
the character in front of it. It goes on to the end of the text. -/
def nameWithin (before : Char) : List Char → Option (List Char)
  | [] => none
  | c :: m => if isWord c != isWord before && isNameStart c then some (c :: m) else nameWithin c m

theorem nameWithin_isSuffix {before : Char} (h : nameWithin before m = some r) : r <:+ m := by
  induction m generalizing before with
  | nil => cases h
  | cons c m ih =>
    rw [nameWithin] at h
    split at h
    · rw [Option.some.inj h]
    · exact (ih h).trans (List.suffix_cons c m)

/-- What stands behind the name of an alias holds no other. -/
theorem findAlias_closing (before : Char) :
    EsModule.findAlias before " as default \x7d;".toList = none := by
  have hspace : EsModule.aliasAt before " as default \x7d;".toList = none := by
    rw [EsModule.aliasAt]
    split <;> rfl
  have hrest : EsModule.findAlias ' ' "as default \x7d;".toList = none := by decide
  have hcons : EsModule.findAlias before " as default \x7d;".toList =
      (EsModule.aliasAt before " as default \x7d;".toList).or
        (if ' ' = '\x7d' then none else EsModule.findAlias ' ' "as default \x7d;".toList) := rfl
  rw [hcons, hspace, hrest, ite_self, Option.or_none]

/-- An alias is read where a name begins at a word boundary. -/
theorem aliasAt_plain {before : Char} (hm : ∀ d ∈ m, isPlainPart d = true) :
    EsModule.aliasAt before (c :: (m ++ " as default \x7d;".toList)) =
      if isWord c != isWord before && isNameStart c then some (c :: m, " \x7d;".toList)
      else none := by
  have hbegins : (atWordEnd (c :: (m ++ " as default \x7d;".toList)) == isWord before) =
      (isWord c != isWord before) := by
    rw [atWordEnd]
    cases isWord c <;> cases isWord before <;> rfl
  have hclosing : ((someBlanks " as default \x7d;".toList).bind fun s => (keyword "as" s).bind
      (wholeWord "default")) = some " \x7d;".toList := by decide
  have hform : EsModule.aliasAt before (c :: (m ++ " as default \x7d;".toList)) =
      if isWord c != isWord before then
        (name (c :: (m ++ " as default \x7d;".toList))).bind fun r =>
          ((someBlanks r.2).bind fun s => (keyword "as" s).bind (wholeWord "default")).map (r.1, ·)
      else none := by
    rw [EsModule.aliasAt, hbegins]
    split
    · simp only [Option.map_eq_bind, Option.bind_assoc]
      rfl
    · rfl
  rw [hform, name_append hm rfl]
  cases isWord c != isWord before with
  | false => rfl
  | true =>
    cases isNameStart c with
    | false => rfl
    | true => rw [if_pos rfl, if_pos rfl, Option.bind_some, hclosing]; rfl

/-- **The name of an alias** is looked for at word boundaries. -/
theorem findAlias_plain {before : Char} (hm : ∀ c ∈ m, isPlainPart c = true) :
    EsModule.findAlias before (m ++ " as default \x7d;".toList) =
      (nameWithin before m).map (·, " \x7d;".toList) := by
  induction m generalizing before with
  | nil => exact findAlias_closing before
  | cons c m ih =>
    have hrest : ∀ d ∈ m, isPlainPart d = true := fun d hd => hm d (List.mem_cons_of_mem c hd)
    have hbrace : c ≠ '\x7d' := ne_of_isPlainPart (hm c (List.mem_cons_self ..)) rfl
    rw [List.cons_append, EsModule.findAlias, aliasAt_plain hrest, if_neg hbrace, ih hrest,
      nameWithin]
    split <;> rfl

/-! ## Behind `module.exports =` -/

theorem wholeForm_eq_bind (s : List Char) :
    CommonJs.wholeForm s = (CommonJs.moduleHead s).bind nameAlone := rfl

/-- No object literal is read where no brace stands. -/
theorem objectForm_of_moduleHead (hhead : CommonJs.moduleHead s = some r)
    (hbrace : expectChar '\x7b' r = none) : CommonJs.objectForm s = none := by
  change (CommonJs.moduleHead s).bind _ = none
  rw [hhead]
  change (expectChar '\x7b' r).bind _ = none
  rw [hbrace]
  rfl

/-! ## The forms of a default export -/

/-- A statement that makes a name the default export. -/
inductive DefaultForm where
  /-- `export default N`, perhaps with a semicolon. -/
  | name (semicolon : Bool)
  /-- `export default function N() {}`, perhaps `async`. -/
  | function (isAsync : Bool)
  /-- `export default class N {}` -/
  | classDef
  /-- `export { N as default };` -/
  | asDefault
  /-- `module.exports = N;` -/
  | wholeModule

namespace DefaultForm

/-- The words in front of the name. -/
def opening : DefaultForm → List Char
  | name _ => "export default ".toList
  | function false => "export default function ".toList
  | function true => "export default async function ".toList
  | classDef => "export default class ".toList
  | asDefault => "export \x7b ".toList
  | wholeModule => "module.exports = ".toList

/-- What follows the name, up to the end of the text. -/
def closing : DefaultForm → List Char
  | name false => []
  | name true | wholeModule => ";".toList
  | function _ => "() {}".toList
  | classDef => " {}".toList
  | asDefault => " as default \x7d;".toList

/-- The statement about a name. -/
def text (f : DefaultForm) (n : Identifier) : List Char := f.opening ++ (n.chars ++ f.closing)

/-- What is read of the name. -/
def taken : DefaultForm → Identifier → Option (List Char)
  | name _, n => (behindFunction? n.chars).or (some n.chars)
  | asDefault, n => nameWithin ' ' n.chars
  | _, n => some n.chars

/-- The name is read in part, or not at all: behind `export default` it begins
with `function` and a name, as an alias it begins with `$`. -/
def Misreads : DefaultForm → Identifier → Prop
  | name _, n => ∃ r, n.chars = "function".toList ++ r ∧ r.head?.any isNameStart = true
  | asDefault, n => n.chars.head? = some '$'
  | _, _ => False

end DefaultForm

theorem slash_notMem_defaultForm (f : DefaultForm) (n : Identifier) : '/' ∉ f.text n := by
  have hopening : '/' ∉ f.opening := by
    cases f with
    | name semicolon => cases semicolon <;> decide
    | function isAsync => cases isAsync <;> decide
    | _ => decide
  have hclosing : '/' ∉ f.closing := by
    cases f with
    | name semicolon => cases semicolon <;> decide
    | function isAsync => cases isAsync <;> decide
    | _ => decide
  simp only [DefaultForm.text, List.mem_append, not_or]
  exact ⟨hopening, slash_notMem_name n, hclosing⟩

/-- There are no comments in such a statement. -/
theorem blankComments_defaultForm (f : DefaultForm) (n : Identifier) :
    blankComments (f.text n) = f.text n := by
  rw [blankComments, mentionsComment_of_notMem (slash_notMem_defaultForm f n),
    if_neg Bool.false_ne_true]

section Forms

variable (n : Identifier)

theorem isPlainPart_of_mem_chars : ∀ c ∈ n.chars, isPlainPart c = true :=
  isPlainPart_of_isPlainName n.isPlain

theorem declareUnreserved_name (role : Role) :
    declareUnreserved role [(0, n.chars)] = [⟨0, role, n.name⟩] := by
  have hnot : reservedWords.contains (String.ofList n.chars) = false := by
    simpa using n.notReserved
  rw [declareUnreserved, declare, List.map_singleton, List.filter_singleton, hnot]
  rfl

theorem extract_name (semicolon : Bool) :
    extract ((DefaultForm.name semicolon).text n) =
      { Exports.empty with
        defaultExport := ((DefaultForm.name semicolon).taken n).map String.ofList } := by
  obtain ⟨b, htext, hstops, hcloses, hstatement, hmute⟩ : ∃ b,
      (DefaultForm.name semicolon).text n = exportDefault .space .space (n.chars ++ b) ∧
        stops b = true ∧ closes b = true ∧ endOfStatement b = some [] ∧ Throughout Mute b [] := by
    cases semicolon with
    | false => exact ⟨[], rfl, rfl, rfl, rfl, Mute.throughout_of_calm rfl rfl⟩
    | true => exact ⟨";".toList, rfl, rfl, rfl, rfl, Mute.throughout_of_calm rfl rfl⟩
  have hbehind : Throughout Mute (n.chars ++ b) [] :=
    (Mute.throughout_of_closes (isPlainPart_of_mem_chars n) (by rwa [List.append_nil])).append hmute
  have hblank : blankComments ((DefaultForm.name semicolon).text n) =
      exportDefault .space .space (n.chars ++ b) := by rw [blankComments_defaultForm, htext]
  rw [extract_exportDefault _ _ hblank hbehind,
    declaredAtFront_exportDefault _ _ (skipBlanks_subject n b),
    className_plainName n.isPlain hstops, asyncFunctionName_plainName n.isPlain hstops,
    nameAlone_plainName n.isPlain hstops, hstatement]
  change exportsOf ([] ++ _ ++ declareUnreserved .defaultExport [(0, n.chars)]) = _
  rw [declareUnreserved_name, DefaultForm.taken]
  cases behindFunction? n.chars <;> rfl

theorem extract_function (isAsync : Bool) :
    extract ((DefaultForm.function isAsync).text n) =
      { Exports.empty with defaultExport := some n.name } := by
  obtain ⟨word, b, hopening, hword, hends, hclass, hread, hcalm⟩ :
      ∃ (word : String) (b : List Char),
        (∀ s, (DefaultForm.function isAsync).opening ++ s =
          exportDefault .space .space (word.toList ++ (b ++ s))) ∧
        word ∈ reservedWords ∧ (∀ s, endsName (b ++ s) = true) ∧
        (∀ s, className (word.toList ++ (b ++ s)) = none) ∧
        (∀ s, asyncFunctionName (word.toList ++ (b ++ s)) =
          name (skipBlanks (optionally (expectChar '*') (skipBlanks s)))) ∧
        ∀ s, Throughout Mute (word.toList ++ b) s := by
    cases isAsync with
    | false =>
      exact ⟨"function", " ".toList, fun _ => rfl, by decide, fun _ => rfl, fun _ => rfl,
        fun _ => rfl, fun _ => Mute.throughout_of_calm rfl rfl⟩
    | true =>
      exact ⟨"async", " function ".toList, fun _ => rfl, by decide, fun _ => rfl, fun _ => rfl,
        fun _ => rfl, fun _ => Mute.throughout_of_calm rfl rfl⟩
  have hname : name (skipBlanks (optionally (expectChar '*')
      (skipBlanks (n.chars ++ "() {}".toList)))) = some (n.chars, "() {}".toList) := by
    rw [skipBlanks_subject, optionally, expectChar_subject n (by rfl), Option.getD_none,
      skipBlanks_subject, name_subject n rfl]
  have hmute : Throughout Mute (word.toList ++ (b ++ (n.chars ++ "() {}".toList))) [] := by
    rw [← List.append_assoc]
    exact (hcalm _).append ((Mute.throughout_of_closes (isPlainPart_of_mem_chars n) rfl).append
      (Mute.throughout_of_calm rfl rfl))
  have hsource : blankComments ((DefaultForm.function isAsync).text n) =
      exportDefault .space .space (word.toList ++ (b ++ (n.chars ++ "() {}".toList))) :=
    (blankComments_defaultForm _ n).trans (hopening _)
  rw [extract_exportDefault _ _ hsource hmute,
    declaredAtFront_reservedWord _ _ word hword (hends _), hclass, hread, hname]
  rfl

theorem extract_classDef :
    extract (DefaultForm.classDef.text n) =
      { Exports.empty with classes := [n.name], defaultExport := some n.name } := by
  have hopening : ∀ s, DefaultForm.classDef.opening ++ s =
      exportDefault .space .space ("class".toList ++ (" ".toList ++ s)) := fun _ => rfl
  have hread : ∀ s, className ("class".toList ++ (" ".toList ++ s)) = name (skipBlanks s) :=
    fun _ => rfl
  have hfunction : ∀ s, asyncFunctionName ("class".toList ++ (" ".toList ++ s)) = none :=
    fun _ => rfl
  have hword : ∀ s, Throughout Mute "class ".toList s := fun _ =>
    Mute.throughout_of_calm rfl rfl
  have hclosing : Throughout Mute " {}".toList [] :=
    Mute.throughout_of_calm rfl rfl
  have hmute : Throughout Mute ("class".toList ++ (" ".toList ++ (n.chars ++ " {}".toList))) [] :=
    (hword _).append ((Mute.throughout_of_closes (isPlainPart_of_mem_chars n) rfl).append hclosing)
  have hsource : blankComments (DefaultForm.classDef.text n) =
      exportDefault .space .space ("class".toList ++ (" ".toList ++ (n.chars ++ " {}".toList))) :=
    (blankComments_defaultForm _ n).trans (hopening _)
  rw [extract_exportDefault _ _ hsource hmute,
    declaredAtFront_reservedWord _ _ "class" (by decide) rfl, hread, hfunction,
    skipBlanks_subject, name_subject n rfl]
  rfl

theorem extract_asDefault :
    extract (DefaultForm.asDefault.text n) =
      { Exports.empty with defaultExport := (nameWithin ' ' n.chars).map String.ofList } := by
  have hcons : DefaultForm.asDefault.text n =
      'e' :: ("xport \x7b ".toList ++ (n.chars ++ " as default \x7d;".toList)) := rfl
  have halias : ∀ s, EsModule.defaultAliasForm ('e' :: ("xport \x7b ".toList ++ s)) =
      EsModule.findAlias '\x7b' (' ' :: s) := fun _ => rfl
  have hspace : ∀ s, EsModule.findAlias '\x7b' (' ' :: s) = EsModule.findAlias ' ' s := by
    intro s
    rw [EsModule.findAlias]
    rfl
  have hothers : ∀ s, EsModule.classForm ('e' :: ("xport \x7b ".toList ++ s)) = none ∧
      EsModule.defaultFunctionForm ('e' :: ("xport \x7b ".toList ++ s)) = none ∧
      EsModule.defaultNameForm ('e' :: ("xport \x7b ".toList ++ s)) = none ∧
      CommonJs.wholeForm ('e' :: ("xport \x7b ".toList ++ s)) = none :=
    fun _ => ⟨rfl, rfl, rfl, rfl⟩
  have hfront : ∀ s, OnlyDefaults ('e' :: ("xport \x7b ".toList ++ s)) := fun _ =>
    ⟨rfl, rfl, rfl, rfl, rfl, rfl, rfl⟩
  have hwords : ∀ s, Throughout Mute "xport \x7b ".toList s := fun _ =>
    Mute.throughout_of_calm rfl rfl
  -- at the end of a name `export` has a word behind it that no form looks for
  have hend : Mute ("export".toList ++ " as default \x7d;".toList) :=
    ⟨⟨⟨rfl, rfl, rfl, rfl, rfl, rfl, rfl⟩, rfl, rfl, rfl, rfl⟩, rfl⟩
  have hname : Throughout Mute n.chars " as default \x7d;".toList :=
    throughout_of_endsName (fun _ => id) (isPlainPart_of_mem_chars n) rfl hend
  have hclosing : Throughout Mute " as default \x7d;".toList [] :=
    Mute.throughout_of_calm rfl rfl
  obtain ⟨hclass, hfunction, halone, hwhole⟩ := hothers (n.chars ++ " as default \x7d;".toList)
  rw [extract_of_front ((blankComments_defaultForm _ n).trans hcons) (hfront _)
    ((hwords _).append (hname.append hclosing)), declaredAtFront, atFront, atFront, atFront,
    atFront, atFront, hclass, hfunction, halone, hwhole, halias, hspace,
    findAlias_plain (isPlainPart_of_mem_chars n)]
  cases nameWithin ' ' n.chars <;> rfl

theorem extract_wholeModule :
    extract (DefaultForm.wholeModule.text n) =
      { Exports.empty with defaultExport := some n.name } := by
  have hcons : DefaultForm.wholeModule.text n =
      'm' :: ("odule.exports = ".toList ++ (n.chars ++ ";".toList)) := rfl
  have hhead : CommonJs.moduleHead ('m' :: ("odule.exports = ".toList ++ (n.chars ++ ";".toList))) =
      some (n.chars ++ ";".toList) :=
    (moduleHead_opening _).trans (congrArg some (skipBlanks_subject n _))
  have hwhole : CommonJs.wholeForm ('m' :: ("odule.exports = ".toList ++ (n.chars ++ ";".toList))) =
      some (n.chars, []) := by
    rw [wholeForm_eq_bind, hhead, Option.bind_some, nameAlone_plainName n.isPlain rfl]
    rfl
  have hothers : ∀ s, EsModule.classForm ('m' :: ("odule.exports = ".toList ++ s)) = none ∧
      EsModule.defaultFunctionForm ('m' :: ("odule.exports = ".toList ++ s)) = none ∧
      EsModule.defaultNameForm ('m' :: ("odule.exports = ".toList ++ s)) = none ∧
      EsModule.defaultAliasForm ('m' :: ("odule.exports = ".toList ++ s)) = none :=
    fun _ => ⟨rfl, rfl, rfl, rfl⟩
  have hfront : OnlyDefaults ('m' :: ("odule.exports = ".toList ++ (n.chars ++ ";".toList))) :=
    ⟨rfl, rfl, rfl, rfl, rfl, objectForm_of_moduleHead hhead (expectChar_subject n rfl _), rfl⟩
  have hwords : ∀ s, Throughout Mute "odule.exports = ".toList s := fun _ =>
    Mute.throughout_of_calm rfl rfl
  have hclosing : Throughout Mute ";".toList [] := Mute.throughout_of_calm rfl rfl
  obtain ⟨hclass, hfunction, halone, halias⟩ := hothers (n.chars ++ ";".toList)
  have hname : Throughout Mute n.chars ";".toList :=
    Mute.throughout_of_closes (isPlainPart_of_mem_chars n) rfl
  rw [extract_of_front ((blankComments_defaultForm _ n).trans hcons) hfront
    ((hwords _).append (hname.append hclosing)), declaredAtFront, atFront, atFront, atFront,
    atFront, atFront, hclass, hfunction, halone, halias, hwhole]
  change exportsOf ([] ++ [] ++ declareUnreserved .wholeModule [(0, n.chars)]) = _
  rw [declareUnreserved_name]
  rfl

/-! ## The name and what is read of it -/

theorem behindFunction?_ne {r : List Char} (h : behindFunction? n.chars = some r) :
    r ≠ n.chars := by
  obtain ⟨hchars, -⟩ := (behindFunction?_eq_some (isPlainPart_of_mem_chars n)).mp h
  intro hr
  rw [← hr] at hchars
  have := congrArg List.length hchars
  rw [List.length_append] at this
  have : "function".toList.length = 8 := rfl
  omega

/-- As an alias a name is read as a whole unless it begins with `$`. -/
theorem nameWithin_eq_self :
    nameWithin ' ' n.chars = some n.chars ↔ n.chars.head? ≠ some '$' := by
  obtain ⟨c, m, hn, hc⟩ := n.exists_cons
  rw [hn, nameWithin, hc, Bool.and_true, List.head?_cons]
  by_cases hdollar : c = '$'
  · subst hdollar
    refine ⟨fun h => ?_, fun h => absurd rfl h⟩
    -- what is read behind the `$` is shorter
    have hlen := (nameWithin_isSuffix (show nameWithin '$' m = some ('$' :: m) from h)).length_le
    simp at hlen
  · have hword : isWord c = true := by
      have : isNamePart c = true := isNamePart_of_isPlainPart (isPlainPart_of_isNameStart hc)
      simpa [isNamePart, hdollar] using this
    rw [hword]
    exact ⟨fun _ h => hdollar (Option.some.inj h), fun _ => rfl⟩

theorem taken_eq_self (f : DefaultForm) : f.taken n = some n.chars ↔ ¬ f.Misreads n := by
  cases f with
  | name semicolon =>
    have hread : ∀ r, behindFunction? n.chars = some r ↔
        n.chars = "function".toList ++ r ∧ r.head?.any isNameStart = true :=
      fun r => behindFunction?_eq_some (isPlainPart_of_mem_chars n)
    rw [DefaultForm.taken, DefaultForm.Misreads, ← exists_congr hread]
    cases h : behindFunction? n.chars with
    | none =>
      refine ⟨fun _ => ?_, fun _ => rfl⟩
      rintro ⟨r, hr⟩
      cases hr
    | some r =>
      refine ⟨fun hr => absurd (Option.some.inj hr) (behindFunction?_ne n h), fun hr => ?_⟩
      exact absurd ⟨r, rfl⟩ hr
  | asDefault => exact nameWithin_eq_self n
  | function isAsync => exact ⟨fun _ => id, fun _ => rfl⟩
  | classDef => exact ⟨fun _ => id, fun _ => rfl⟩
  | wholeModule => exact ⟨fun _ => id, fun _ => rfl⟩

end Forms

/-- **The default export is the declared name**, but for the names that are
misread; what is read of those is told by `taken`. -/
theorem defaultExport_text (f : DefaultForm) (n : Identifier) :
    (extract (f.text n)).defaultExport = (f.taken n).map String.ofList ∧
    ((extract (f.text n)).defaultExport = some n.name ↔ ¬ f.Misreads n) := by
  have hread : (extract (f.text n)).defaultExport = (f.taken n).map String.ofList := by
    cases f with
    | name semicolon => rw [extract_name]
    | function isAsync => rw [extract_function]; rfl
    | classDef => rw [extract_classDef]; rfl
    | asDefault => rw [extract_asDefault]; rfl
    | wholeModule => rw [extract_wholeModule]; rfl
  refine ⟨hread, ?_⟩
  rw [hread, ← taken_eq_self, Option.map_eq_some_iff]
  constructor
  · rintro ⟨r, hr, hname⟩
    rw [hr, String.ofList_injective hname]
  · exact fun hr => ⟨_, hr, rfl⟩

/-- Of `functionFoo` only `Foo` is read, and of `$store` only `store`. -/
theorem defaultExport_misread :
    (extract "export default functionFoo;".toList).defaultExport = some "Foo" ∧
    (extract "export \x7b $store as default \x7d;".toList).defaultExport = some "store" := by
  constructor
  · have hread := extract_name ⟨"functionFoo".toList, by decide, by decide⟩ true
    exact (congrArg Exports.defaultExport hread).trans (by decide)
  · have hread := extract_asDefault ⟨"$store".toList, by decide, by decide⟩
    exact (congrArg Exports.defaultExport hread).trans (by decide)

end Source

end ExportAtlas
