import Mathlib.Data.List.TakeWhile
import ExportAtlas.Proofs.Text.Pieces
import ExportAtlas.Proofs.Source.Characters
import ExportAtlas.Proofs.Source.Comments
import ExportAtlas.Proofs.Source.Filing
import ExportAtlas.Proofs.Source.Occurrences
/-!
# Where names come from

No name is made up. Every reader leaves an end of the text it is given
(`Leaves`), every form finds a name that stands in the text it is given
(`Finds`), and both are kept when one reader goes on behind another. So what
is declared stands in the masked text, and since a name holds no blank, it
stands in the source outside comments (`recorded_outside_comments`).
-/

namespace ExportAtlas

namespace Source

open Text (isBlank isWord)

variable {α : Type}

/-! ## Names -/

/-- A name: a character that may begin one, then characters that may continue
it. -/
def IsName (chars : List Char) : Prop :=
  ∃ c rest, chars = c :: rest ∧ isNameStart c = true ∧ ∀ d ∈ rest, isNamePart d = true

/-- A name that stands in a text. -/
def NameIn (text chars : List Char) : Prop := IsName chars ∧ chars <:+: text

theorem NameIn.mono {s t chars : List Char} (h : NameIn s chars) (hst : s <:+: t) :
    NameIn t chars :=
  ⟨h.1, h.2.trans hst⟩

/-! ## Readers -/

/-- A reader leaves an end of the text it is given. -/
def Leaves (read : List Char → Option (List Char)) : Prop :=
  ∀ s r, read s = some r → r <:+ s

/-- A scan finds a name in the text it is given; `nameOf` takes it from what
is found. -/
def Finds (nameOf : α → List Char) (scan : Scan α) : Prop :=
  ∀ s found left, scan s = some (found, left) → NameIn s (nameOf found)

theorem leaves_expect (ks : List Char) : Leaves (expect ks) := by
  induction ks with
  | nil =>
    intro s r h
    cases h
    exact List.suffix_rfl
  | cons k ks ih =>
    intro s r h
    cases s with
    | nil => cases h
    | cons c s =>
      rw [expect] at h
      split at h
      · exact (ih s r h).trans (List.suffix_cons c s)
      · cases h

theorem leaves_expectChar (k : Char) : Leaves (expectChar k) := leaves_expect [k]

theorem skipBlanks_isSuffix (s : List Char) : skipBlanks s <:+ s := List.dropWhile_suffix _

theorem Leaves.bind {read next : List Char → Option (List Char)} (hread : Leaves read)
    (hnext : Leaves next) : Leaves fun s => (read s).bind next := by
  intro s r h
  obtain ⟨t, ht, hr⟩ := Option.bind_eq_some_iff.mp h
  exact (hnext t r hr).trans (hread s t ht)

theorem leaves_someBlanks : Leaves someBlanks := by
  intro s r h
  cases s with
  | nil => cases h
  | cons c s =>
    rw [someBlanks] at h
    split at h
    · rw [← Option.some.inj h]
      exact (skipBlanks_isSuffix s).trans (List.suffix_cons c s)
    · cases h

theorem leaves_keyword (word : String) : Leaves (keyword word) :=
  (leaves_expect word.toList).bind leaves_someBlanks

theorem Leaves.optionally {read : List Char → Option (List Char)} (h : Leaves read)
    (s : List Char) : optionally read s <:+ s := by
  unfold Source.optionally
  cases hr : read s with
  | none => exact List.suffix_rfl
  | some r => exact h s r hr

theorem finds_name : Finds id name := by
  intro s found left h
  cases s with
  | nil => cases h
  | cons c s =>
    rw [name] at h
    split at h
    · rename_i hc
      rw [← (Prod.mk.inj (Option.some.inj h)).1]
      refine ⟨⟨c, _, rfl, hc, fun d hd => ?_⟩, ?_⟩
      · exact List.mem_takeWhile_imp hd
      · exact ((List.prefix_cons_inj c).mpr (List.takeWhile_prefix _)).isInfix
    · cases h

/-- A scan that goes on where a reader stops finds what it finds. -/
theorem Finds.bind {nameOf : α → List Char} {read : List Char → Option (List Char)}
    {scan : Scan α} (hscan : Finds nameOf scan) (hread : Leaves read) :
    Finds nameOf fun s => (read s).bind scan := by
  intro s found left h
  obtain ⟨t, ht, hfound⟩ := Option.bind_eq_some_iff.mp h
  exact (hscan t found left hfound).mono (hread s t ht).isInfix

/-- And so does one that goes on where something has been passed over. -/
theorem Finds.behind {nameOf : α → List Char} {scan : Scan α} {pass : List Char → List Char}
    (hscan : Finds nameOf scan) (hpass : ∀ s, pass s <:+ s) :
    Finds nameOf fun s => scan (pass s) := by
  intro s found left h
  exact (hscan _ found left h).mono (hpass s).isInfix

/-- What is done behind a name does not change it. -/
theorem Finds.andThen {β : Type} {nameOf : α → List Char} {scan : Scan α}
    (hscan : Finds nameOf scan) (nameOf' : β → List Char)
    (next : α × List Char → Option (β × List Char))
    (hnext : ∀ r b, next r = some b → nameOf' b.1 = nameOf r.1) :
    Finds nameOf' fun s => (scan s).bind next := by
  intro s found left h
  obtain ⟨r, hr, hfound⟩ := Option.bind_eq_some_iff.mp h
  rw [hnext r (found, left) hfound]
  exact hscan s r.1 r.2 hr

/-- A name counts only if a reader succeeds behind it. -/
theorem Finds.before {scan : Scan (List Char)} (hscan : Finds id scan)
    (read : List Char → Option (List Char)) :
    Finds id fun s => (scan s).bind fun r => (read r.2).bind fun t => some (r.1, t) := by
  refine hscan.andThen id _ fun r b h => ?_
  obtain ⟨t, -, hb⟩ := Option.bind_eq_some_iff.mp h
  rw [← Option.some.inj hb]

/-! ## Forms of ES modules -/

theorem leaves_exportHead : Leaves EsModule.exportHead := leaves_keyword "export"

theorem finds_functionName : Finds id EsModule.functionName :=
  ((finds_name.behind skipBlanks_isSuffix).behind
    fun s => ((leaves_expectChar '*').optionally _).trans (skipBlanks_isSuffix s)).bind
    (leaves_expect _)

theorem finds_functionForm : Finds id EsModule.functionForm :=
  (finds_functionName.behind (leaves_keyword "async").optionally).bind leaves_exportHead

theorem finds_constantForm : Finds Prod.fst EsModule.constantForm :=
  ((finds_name.andThen Prod.fst (fun r => some ((r.1, r.2), r.2))
    fun r b h => by cases h; rfl).bind (leaves_keyword "const")).bind leaves_exportHead

theorem finds_typeForm (word : String) : Finds id (EsModule.typeForm word) :=
  ((finds_name.bind (leaves_keyword word)).behind (leaves_keyword "declare").optionally).bind
    leaves_exportHead

/-- Whether `default` stands in front of a class does not bear on its name. -/
theorem finds_classForm : Finds Prod.snd EsModule.classForm := by
  have hclass : ∀ isDefault : Bool, Finds Prod.snd fun s =>
      (keyword "class" (optionally (keyword "abstract") (optionally (keyword "declare") s))).bind
        fun s => (name s).bind fun r => some ((isDefault, r.1), r.2) := fun isDefault =>
    (((finds_name.andThen Prod.snd (fun r => some ((isDefault, r.1), r.2))
      fun r b h => by cases h; rfl).bind (leaves_keyword "class")).behind
        (leaves_keyword "abstract").optionally).behind (leaves_keyword "declare").optionally
  have hrest : Finds Prod.snd fun s =>
      (keyword "class" (optionally (keyword "abstract") (optionally (keyword "declare")
        (optionally (keyword "default") s)))).bind fun t => (name t).bind
          fun r => some (((keyword "default" s).isSome, r.1), r.2) := fun s found left h =>
    (hclass _ _ found left h).mono ((leaves_keyword "default").optionally s).isInfix
  exact hrest.bind leaves_exportHead

theorem finds_defaultFunctionForm : Finds id EsModule.defaultFunctionForm :=
  ((finds_functionName.behind (leaves_keyword "async").optionally).bind
    (leaves_keyword "default")).bind leaves_exportHead

theorem finds_defaultNameForm : Finds id EsModule.defaultNameForm :=
  ((finds_name.before endOfStatement).bind (leaves_keyword "default")).bind leaves_exportHead

theorem finds_aliasAt (before : Char) : Finds id (EsModule.aliasAt before) := by
  intro s found left h
  rw [EsModule.aliasAt] at h
  split at h
  · refine finds_name.andThen id (fun r => (someBlanks r.2).bind fun t =>
      (keyword "as" t).bind fun t => (wholeWord "default" t).bind fun t => some (r.1, t))
      (fun r b hb => ?_) s found left h
    obtain ⟨t, -, ht⟩ := Option.bind_eq_some_iff.mp hb
    obtain ⟨u, -, hu⟩ := Option.bind_eq_some_iff.mp ht
    obtain ⟨v, -, hv⟩ := Option.bind_eq_some_iff.mp hu
    rw [← Option.some.inj hv]
  · cases h

theorem finds_findAlias (before : Char) : Finds id (EsModule.findAlias before) := by
  intro s
  induction s generalizing before with
  | nil =>
    intro found left h
    cases h
  | cons c s ih =>
    intro found left h
    rw [EsModule.findAlias, Option.or_eq_some_iff] at h
    -- an alias right here, or one further on before the braces close
    rcases h with h | ⟨-, h⟩
    · exact finds_aliasAt before _ found left h
    · split at h
      · cases h
      · exact (ih c found left h).mono (List.suffix_cons c s).isInfix

theorem finds_defaultAliasForm : Finds id EsModule.defaultAliasForm :=
  (((finds_findAlias '{').bind (leaves_expectChar '{')).behind skipBlanks_isSuffix).bind
    (leaves_expect _)

/-! ## Forms of CommonJS modules -/

theorem finds_memberForm : Finds Prod.fst CommonJs.memberForm := by
  have hname : Finds Prod.fst fun s => (name s).bind fun r =>
      (expectChar '=' (skipBlanks r.2)).bind fun t => some ((r.1, t), t) := by
    refine finds_name.andThen Prod.fst _ fun r b h => ?_
    obtain ⟨t, -, hb⟩ := Option.bind_eq_some_iff.mp h
    rw [← Option.some.inj hb]
    rfl
  exact (hname.bind (leaves_expect _)).behind (leaves_expect _).optionally

theorem leaves_moduleHead : Leaves CommonJs.moduleHead := by
  have hassign : Leaves fun s =>
      (expectChar '=' (skipBlanks s)).bind fun t => some (skipBlanks t) := by
    intro s r h
    obtain ⟨t, ht, hr⟩ := Option.bind_eq_some_iff.mp h
    rw [← Option.some.inj hr]
    exact ((skipBlanks_isSuffix t).trans (leaves_expectChar '=' _ t ht)).trans
      (skipBlanks_isSuffix s)
  exact (leaves_expect _).bind hassign

theorem finds_wholeForm : Finds id CommonJs.wholeForm :=
  (finds_name.before endOfStatement).bind leaves_moduleHead

theorem leaves_skipPast (stop : Char) : Leaves (skipPast stop) := by
  intro s r h
  have hsuffix := List.dropWhile_suffix (l := s) (· != stop)
  rw [skipPast] at h
  cases hdrop : s.dropWhile (· != stop) with
  | nil =>
    rw [hdrop] at h
    cases h
  | cons c rest =>
    rw [hdrop] at h hsuffix
    rw [← Option.some.inj h]
    exact (List.suffix_cons c rest).trans hsuffix

theorem leaves_quote : Leaves fun s => (expectChar '"' s).or (expectChar '\'' s) := by
  intro s r h
  rcases Option.or_eq_some_iff.mp h with h | ⟨-, h⟩
  · exact leaves_expectChar _ s r h
  · exact leaves_expectChar _ s r h

theorem finds_quotedName : Finds id quotedName :=
  (finds_name.before fun s => (expectChar '"' s).or (expectChar '\'' s)).bind leaves_quote

theorem finds_modelForm : Finds id CommonJs.modelForm := by
  have hquoted : Finds id fun s => (expectChar '(' (skipBlanks s)).bind
      fun t => quotedName (skipBlanks t) :=
    ((finds_quotedName.behind skipBlanks_isSuffix).bind (leaves_expectChar '(')).behind
      skipBlanks_isSuffix
  have hargument : Leaves fun s => (expectChar '<' s).bind (skipPast '>') :=
    (leaves_expectChar '<').bind (leaves_skipPast '>')
  exact ((hquoted.behind hargument.optionally).behind skipBlanks_isSuffix).bind (leaves_expect _)

theorem body_isInfix_of_objectForm {s left body : List Char} {offset : Nat}
    (h : CommonJs.objectForm s = some ((offset, body), left)) : body <:+: s := by
  change (CommonJs.moduleHead s).bind (fun inside => (expectChar '{' inside).bind fun inside =>
    (expectChar '}' (inside.dropWhile (· != '}'))).bind fun rest =>
      if (inside.takeWhile (· != '}')).isEmpty then none
      else some ((s.length - inside.length, inside.takeWhile (· != '}')), rest)) = _ at h
  obtain ⟨t, ht, h⟩ := Option.bind_eq_some_iff.mp h
  obtain ⟨inside, hinside, h⟩ := Option.bind_eq_some_iff.mp h
  obtain ⟨rest, -, h⟩ := Option.bind_eq_some_iff.mp h
  split at h
  · cases h
  · cases h
    exact (List.takeWhile_prefix _).isInfix.trans
      ((leaves_expectChar '{' t inside hinside).trans (leaves_moduleHead s t ht)).isInfix

/-- A key of an object literal is a name. -/
theorem isName_of_isPlainName {chars : List Char} (h : CommonJs.isPlainName chars = true) :
    IsName chars := by
  cases chars with
  | nil => cases h
  | cons c rest =>
    rw [CommonJs.isPlainName, Bool.and_eq_true, List.all_eq_true] at h
    exact ⟨c, rest, rfl, h.1, fun d hd => isNamePart_of_isPlainPart (h.2 d hd)⟩

theorem keyOf_isInfix (item : List Char) : CommonJs.keyOf item <:+: item :=
  (Text.trim_isInfix _).trans (Text.cutAt_isPrefix ':' item).isInfix

/-! ## Declarations -/

section Declarations

variable {text : List Char} {d : Declaration}

/-- The name of a declaration stands in the text that it was read from. -/
def ReadFrom (text : List Char) (d : Declaration) : Prop := NameIn text d.name.toList

theorem readFrom_of_found {nameOf : α → List Char} {scan : Scan α} {p : Nat} {found : α}
    (hscan : Finds nameOf scan) (h : (p, found) ∈ occurrences scan text) :
    NameIn text (nameOf found) := by
  obtain ⟨before, rest, left, htext, -, hfound⟩ := mem_occurrences h
  refine (hscan rest found left hfound).mono ?_
  rw [htext]
  exact (List.suffix_append before rest).isInfix

theorem readFrom_declare {role : Role} {scan : Scan (List Char)} (hscan : Finds id scan)
    (h : d ∈ declare role (occurrences scan text)) : ReadFrom text d := by
  obtain ⟨⟨p, found⟩, hmem, rfl⟩ := List.mem_map.mp h
  rw [ReadFrom, String.toList_ofList]
  exact readFrom_of_found hscan hmem

theorem readFrom_declareUnreserved {role : Role} {scan : Scan (List Char)} (hscan : Finds id scan)
    (h : d ∈ declareUnreserved role (occurrences scan text)) : ReadFrom text d :=
  readFrom_declare hscan (List.mem_filter.mp h).1

theorem readFrom_constants (h : d ∈ EsModule.constants text) : ReadFrom text d := by
  obtain ⟨⟨p, found, rest⟩, hmem, hd⟩ := List.mem_filterMap.mp h
  obtain ⟨value, -, rfl⟩ := Option.map_eq_some_iff.mp hd
  rw [ReadFrom, String.toList_ofList]
  exact readFrom_of_found finds_constantForm hmem

theorem readFrom_classes (h : d ∈ EsModule.classes text) : ReadFrom text d := by
  obtain ⟨⟨p, isDefault, found⟩, hmem, hd⟩ := List.mem_flatMap.mp h
  -- as a class and as the default export it has the same name
  have hname : d.name = String.ofList found := by
    rcases List.mem_cons.mp hd with rfl | hd
    · rfl
    · split at hd
      · rw [List.mem_singleton.mp hd]
      · cases hd
  rw [ReadFrom, hname, String.toList_ofList]
  exact readFrom_of_found finds_classForm hmem

theorem readFrom_members (h : d ∈ CommonJs.members text) : ReadFrom text d := by
  obtain ⟨⟨p, found, value⟩, hmem, hd⟩ := List.mem_filterMap.mp h
  have hname : d.name = String.ofList found := by
    dsimp only at hd
    split at hd
    · cases hd
    · split at hd
      · cases hd
        rfl
      · split at hd
        · cases hd
          rfl
        · cases hd
  rw [ReadFrom, hname, String.toList_ofList]
  exact readFrom_of_found finds_memberForm hmem

theorem mem_of_mem_placed {item : List Char} {items : List (List Char)} {p q : Nat}
    (h : (q, item) ∈ CommonJs.placed p items) : item ∈ items := by
  induction items generalizing p with
  | nil => cases h
  | cons first items ih =>
    rcases List.mem_cons.mp h with heq | hmem
    · rw [(Prod.mk.inj heq).2]
      exact List.mem_cons_self ..
    · exact List.mem_cons_of_mem first (ih hmem)

theorem readFrom_objectKeys (h : d ∈ CommonJs.objectKeys text) : ReadFrom text d := by
  rw [CommonJs.objectKeys] at h
  split at h
  · cases h
  · rename_i position offset body hhead
    obtain ⟨⟨p, item⟩, hmem, hd⟩ := List.mem_filterMap.mp h
    dsimp only at hd
    split at hd
    · rename_i hplain
      cases hd
      -- the key stands in an item, the item between the braces, the braces in the text
      obtain ⟨before, rest, left, htext, -, hfound⟩ :=
        mem_occurrences (List.mem_of_mem_head? hhead)
      have hbody : body <:+: text := by
        rw [htext]
        exact (body_isInfix_of_objectForm hfound).trans (List.suffix_append before rest).isInfix
      rw [ReadFrom, String.toList_ofList]
      exact ⟨isName_of_isPlainName hplain, (keyOf_isInfix item).trans
        ((Text.infix_of_mem_splitOn (mem_of_mem_placed hmem)).trans hbody)⟩
    · cases hd

/-- **Every declaration is read from the text.** -/
theorem readFrom_declarations
    (h : d ∈ EsModule.declarations text ++ CommonJs.declarations text) : ReadFrom text d := by
  simp only [EsModule.declarations, CommonJs.declarations, List.mem_append] at h
  rcases h with (((((((h | h) | h) | h) | h) | h) | h) | h) | (((h | h) | h) | h)
  · exact readFrom_declare finds_functionForm h
  · exact readFrom_constants h
  · exact readFrom_declare (finds_typeForm "type") h
  · exact readFrom_declare (finds_typeForm "interface") h
  · exact readFrom_classes h
  · exact readFrom_declare finds_defaultFunctionForm h
  · exact readFrom_declareUnreserved finds_defaultNameForm h
  · exact readFrom_declare finds_defaultAliasForm h
  · exact readFrom_members h
  · exact readFrom_objectKeys h
  · exact readFrom_declareUnreserved finds_wholeForm h
  · exact readFrom_declare finds_modelForm h

end Declarations

/-! ## Recorded names -/

section Recorded

variable {said : List (Role × String)} {source : List Char} {name : String}

/-- The names that exports record: those of every kind, and the default
export. -/
def recorded (e : Exports) : List String := e.symbols.map Prod.snd ++ e.defaultExport.toList

theorem mem_namesOf {role : Role} (h : name ∈ namesOf role said) : ∃ s ∈ said, s.2 = name := by
  rw [namesOf, List.mem_eraseDups] at h
  obtain ⟨s, hs, hname⟩ := List.mem_map.mp h
  exact ⟨s, (List.mem_filter.mp hs).1, hname⟩

theorem exists_of_mem_namesFirst {role : Role} (h : name ∈ namesFirst role said) :
    ∃ s ∈ said, s.2 = name := by
  have hvalue := (List.mem_filter.mp h).1
  rw [valueNames, List.mem_eraseDups] at hvalue
  obtain ⟨s, hs, hname⟩ := List.mem_map.mp hvalue
  exact ⟨s, (List.mem_filter.mp hs).1, hname⟩

theorem exists_of_firstOf? {role : Role} (h : firstOf? role said = some name) :
    ∃ s ∈ said, s.2 = name := by
  obtain ⟨s, hs, hname⟩ := Option.map_eq_some_iff.mp h
  exact ⟨s, List.mem_of_find?_eq_some hs, hname⟩

/-- Filing records no name that was not declared. -/
theorem exists_of_mem_recorded (h : name ∈ recorded (filed said)) : ∃ s ∈ said, s.2 = name := by
  rcases List.mem_append.mp h with h | h
  · obtain ⟨⟨kind, n⟩, hmem, rfl⟩ := List.mem_map.mp h
    obtain ⟨kind', -, hn⟩ := List.mem_flatMap.mp hmem
    obtain ⟨n', hn', heq⟩ := List.mem_map.mp hn
    obtain ⟨rfl, rfl⟩ := Prod.mk.inj heq
    cases kind' with
    | function => exact exists_of_mem_namesFirst hn'
    | constant => exact exists_of_mem_namesFirst hn'
    | type => exact mem_namesOf hn'
    | interface => exact mem_namesOf hn'
    | classDef => exact mem_namesOf hn'
  · rw [Option.mem_toList] at h
    rcases Option.or_eq_some_iff.mp h with h | ⟨-, h⟩
    · exact exists_of_firstOf? h
    · exact exists_of_firstOf? h

/-- A recorded name is one of a declaration, and so is read from the masked
text. -/
theorem nameIn_of_mem_recorded (h : name ∈ recorded (extract source)) :
    NameIn (blankComments source) name.toList := by
  rw [extract, exportsOf_eq_filed] at h
  obtain ⟨s, hs, rfl⟩ := exists_of_mem_recorded h
  obtain ⟨d, hd, rfl⟩ := List.mem_map.mp hs
  exact readFrom_declarations (inTextOrder_perm.mem_iff.mp hd)

/-- **No name is made up or read out of a comment.** For every source text,
every recorded name is a name, and it stands in the source as a run of
characters of which none lies in a comment. -/
theorem recorded_outside_comments (h : name ∈ recorded (extract source)) :
    IsName name.toList ∧ ∃ before after : List (Char × Bool),
      marked .code source = before ++ name.toList.map (·, false) ++ after ∧
      source = before.map Prod.fst ++ name.toList ++ after.map Prod.fst := by
  obtain ⟨hname, hinfix⟩ := nameIn_of_mem_recorded h
  rw [blankComments_eq] at hinfix
  obtain ⟨c, rest, hchars, hc, hrest⟩ := hname
  have hblank : ∀ d ∈ name.toList, d ≠ ' ' ∧ d ≠ '\n' := by
    intro d hd
    rw [hchars] at hd
    rcases List.mem_cons.mp hd with rfl | hd
    · exact ne_blank_of_isNamePart (isNamePart_of_isPlainPart (isPlainPart_of_isNameStart hc))
    · exact ne_blank_of_isNamePart (hrest d hd)
  have hne : name.toList ≠ [] := by
    rw [hchars]
    exact List.cons_ne_nil c rest
  obtain ⟨before, after, hmarked⟩ := infix_marked hne hblank hinfix
  -- without the marks the marked text is the source
  have hsource := congrArg (List.map Prod.fst) hmarked
  rw [map_fst_marked, List.map_append, List.map_append, List.map_map] at hsource
  refine ⟨⟨c, rest, hchars, hc, hrest⟩, before, after, hmarked.symm, ?_⟩
  rw [← hsource]
  exact congrArg (fun s => before.map Prod.fst ++ s ++ after.map Prod.fst)
    (List.map_id name.toList)

/-- A function behind a comment that mentions a class is recorded, from where
it stands. -/
theorem recorded_behind_comment :
    "f" ∈ recorded (extract "/* export class C */\nexport function f() {}".toList) ∧
      IsName "f".toList ∧ ∃ before after : List (Char × Bool),
        marked .code "/* export class C */\nexport function f() {}".toList =
          before ++ "f".toList.map (·, false) ++ after ∧
        "/* export class C */\nexport function f() {}".toList =
          before.map Prod.fst ++ "f".toList ++ after.map Prod.fst := by
  have hread : ∀ text, text = blankComments "/* export class C */\nexport function f() {}".toList →
      EsModule.declarations text ++ CommonJs.declarations text = [⟨21, .function, "f"⟩] := by
    rintro text rfl
    decide
  have hrecorded :
      "f" ∈ recorded (extract "/* export class C */\nexport function f() {}".toList) := by
    rw [extract, declarationsOf, hread _ rfl, inTextOrder, List.mergeSort_singleton]
    decide
  exact ⟨hrecorded, recorded_outside_comments hrecorded⟩

end Recorded

end Source

end ExportAtlas
