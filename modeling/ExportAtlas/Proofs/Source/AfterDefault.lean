import ExportAtlas.Proofs.Source.Front
/-!
# What stands behind `export default`

The front of a text that begins with `export default` is read by what stands
behind it: by the name of a class, the name of a function, and a name that
stands alone (`declaredAtFront_exportDefault`). Of a name that begins with
`function` the rest is read as the name of a function (`behindFunction?`), as
that word needs nothing behind it. Reserved words are no names
(`declaredAtFront_reservedWord`).
-/

namespace ExportAtlas

namespace Source

open Text (isBlank)

variable {c : Char} {b m r s source : List Char}

/-! ## Blanks between words -/

/-- Blanks, or none. -/
structure Blanks where
  chars : List Char
  isBlank : ∀ c ∈ chars, Text.isBlank c = true

/-- Blanks that keep two words apart. -/
structure Gap extends Blanks where
  ne_nil : chars ≠ []

/-- A single space. -/
def Gap.space : Gap := ⟨⟨[' '], List.all_eq_true.mp rfl⟩, List.cons_ne_nil _ _⟩

theorem Blanks.skipBlanks_append (g : Blanks) (s : List Char) :
    skipBlanks (g.chars ++ s) = skipBlanks s := List.dropWhile_append_of_pos g.isBlank

theorem Gap.exists_cons (g : Gap) : ∃ c t, g.chars = c :: t ∧ Text.isBlank c = true := by
  obtain ⟨c, t, hg⟩ := List.exists_cons_of_ne_nil g.ne_nil
  exact ⟨c, t, hg, g.isBlank c (by rw [hg]; exact List.mem_cons_self ..)⟩

theorem Gap.someBlanks_append (g : Gap) (s : List Char) :
    someBlanks (g.chars ++ s) = some (skipBlanks s) := by
  obtain ⟨c, t, hg, hc⟩ := g.exists_cons
  rw [← g.skipBlanks_append, hg, List.cons_append, someBlanks, if_pos hc, skipBlanks, skipBlanks,
    List.dropWhile_cons, if_pos hc]

/-- A word that a gap follows is read as a keyword. -/
theorem Gap.keyword_append (g : Gap) (word : String) (s : List Char) :
    keyword word (word.toList ++ (g.chars ++ s)) = some (skipBlanks s) := by
  have hword : expect word.toList (word.toList ++ (g.chars ++ s)) = some (g.chars ++ s) :=
    expect_eq_some.mpr rfl
  rw [keyword, hword, Option.bind_some, g.someBlanks_append]

/-- Blanks are a gap if there are any. -/
theorem Blanks.eq_nil_or_gap (g : Blanks) : g.chars = [] ∨ ∃ g' : Gap, g.chars = g'.chars := by
  by_cases h : g.chars = []
  · exact .inl h
  · exact .inr ⟨⟨g, h⟩, rfl⟩

theorem endsName_of_isBlank (h : isBlank c = true) : endsName (c :: b) = true := by
  have hdot : c ≠ '.' := by
    rintro rfl
    cases h
  simp [endsName, isNamePart_of_isBlank h, hdot]

theorem Blanks.endsName_append (g : Blanks) (h : endsName b = true) :
    endsName (g.chars ++ b) = true := by
  cases hg : g.chars with
  | nil => exact h
  | cons c t => exact endsName_of_isBlank (g.isBlank c (by rw [hg]; exact List.mem_cons_self ..))

theorem Gap.endsName_append (g : Gap) (b : List Char) : endsName (g.chars ++ b) = true := by
  obtain ⟨c, t, hg, hc⟩ := g.exists_cons
  rw [hg]
  exact endsName_of_isBlank hc

/-- Nothing is read in blanks. -/
theorem Blanks.throughout (g : Blanks) : Throughout Mute g.chars b := by
  have hcalm : g.chars.all (fun c => c != 'e' && c != 'm') = true := by
    refine List.all_eq_true.mpr fun c hc => ?_
    have hblank := g.isBlank c hc
    rw [Bool.and_eq_true, bne_iff_ne, bne_iff_ne]
    constructor <;> rintro rfl <;> cases hblank
  exact .throughout_of_calm (calm_of_all isPhrase_opens hcalm)
    (calm_of_all isPhrase_opensMember hcalm)

/-! ## Behind `export default` -/

/-- `export default` and what follows it. -/
def exportDefault (g g' : Gap) (s : List Char) : List Char :=
  "export".toList ++ (g.chars ++ ("default".toList ++ (g'.chars ++ s)))

/-- The name of a class, behind `class` and what may stand in front of it. -/
def className : Scan (List Char) := fun s =>
  (keyword "class" (optionally (keyword "abstract") (optionally (keyword "declare") s))).bind name

/-- The name of a function, perhaps behind `async`. -/
def asyncFunctionName : Scan (List Char) := fun s =>
  EsModule.functionName (optionally (keyword "async") s)

/-- A name with nothing else on the line. -/
def nameAlone : Scan (List Char) := fun s =>
  (name s).bind fun r => (endOfStatement r.2).bind fun t => some (r.1, t)

section ExportDefault

variable (g g' : Gap)

theorem exportHead_exportDefault :
    EsModule.exportHead (exportDefault g g' s) = some ("default".toList ++ (g'.chars ++ s)) :=
  g.keyword_append "export" _

variable (hs : skipBlanks s = s)
include hs

theorem keyword_default : keyword "default" ("default".toList ++ (g'.chars ++ s)) = some s := by
  rw [g'.keyword_append, hs]

theorem classForm_exportDefault :
    EsModule.classForm (exportDefault g g' s) =
      (className s).map fun r => ((true, r.1), r.2) := by
  have hform : EsModule.classForm (exportDefault g g' s) =
      (EsModule.exportHead (exportDefault g g' s)).bind fun t =>
        (keyword "class" (optionally (keyword "abstract")
          (optionally (keyword "declare") (optionally (keyword "default") t)))).bind fun u =>
            (name u).bind fun r => some (((keyword "default" t).isSome, r.1), r.2) := rfl
  have hdefault : optionally (keyword "default") ("default".toList ++ (g'.chars ++ s)) = s := by
    rw [optionally, keyword_default g' hs, Option.getD_some]
  rw [hform, exportHead_exportDefault, Option.bind_some, hdefault, keyword_default g' hs,
    className, Option.map_bind]
  simp only [Function.comp_def, Option.map_eq_bind, Option.isSome_some]

theorem defaultFunctionForm_exportDefault :
    EsModule.defaultFunctionForm (exportDefault g g' s) = asyncFunctionName s := by
  have hform : EsModule.defaultFunctionForm (exportDefault g g' s) =
      (EsModule.exportHead (exportDefault g g' s)).bind fun t =>
        (keyword "default" t).bind asyncFunctionName := rfl
  rw [hform, exportHead_exportDefault, Option.bind_some, keyword_default g' hs, Option.bind_some]

theorem defaultNameForm_exportDefault :
    EsModule.defaultNameForm (exportDefault g g' s) = nameAlone s := by
  have hform : EsModule.defaultNameForm (exportDefault g g' s) =
      (EsModule.exportHead (exportDefault g g' s)).bind fun t =>
        (keyword "default" t).bind nameAlone := rfl
  rw [hform, exportHead_exportDefault, Option.bind_some, keyword_default g' hs, Option.bind_some]

/-- **What is declared behind `export default`.** -/
theorem declaredAtFront_exportDefault :
    declaredAtFront (exportDefault g g' s) =
      (className s).toList.flatMap (fun r =>
        [⟨0, .classDef, String.ofList r.1⟩, ⟨0, .defaultExport, String.ofList r.1⟩]) ++
      (asyncFunctionName s).toList.map (fun r => ⟨0, .defaultExport, String.ofList r.1⟩) ++
      declareUnreserved .defaultExport ((nameAlone s).toList.map fun r => (0, r.1)) := by
  rw [declaredAtFront, atFront, atFront, atFront, classForm_exportDefault g g' hs,
    defaultFunctionForm_exportDefault g g' hs, defaultNameForm_exportDefault g g' hs]
  cases className s <;> cases asyncFunctionName s <;> cases nameAlone s <;> rfl

omit hs in
theorem onlyDefaults_exportDefault : OnlyDefaults (exportDefault g g' s) := by
  have hbind : ∀ {α : Type} {f : List Char → Option α},
      f ("default".toList ++ (g'.chars ++ s)) = none →
        (EsModule.exportHead (exportDefault g g' s)).bind f = none := by
    intro α f hf
    rw [exportHead_exportDefault, Option.bind_some, hf]
  have hmember : CommonJs.memberForm (exportDefault g g' s) = none :=
    memberForm_of_not_opens (opensMember_of_endsName (List.all_eq_true.mp rfl) (g.endsName_append _))
  exact ⟨hbind rfl, hbind rfl, hbind rfl, hbind rfl, hmember, rfl, rfl⟩

omit hs in
theorem defaultAliasForm_exportDefault :
    EsModule.defaultAliasForm (exportDefault g g' s) = none := by
  change (expectChar '{' (skipBlanks (g.chars ++ ("default".toList ++ (g'.chars ++ s))))).bind _ =
    none
  rw [g.skipBlanks_append]
  rfl

/-- What stops a part `b` being read behind `export default` stops it being read
at all. -/
theorem stopsAt_exportDefault (hclass : ∀ r, className s = some r → b.length ≤ r.2.length)
    (hfunction : ∀ r, asyncFunctionName s = some r → b.length ≤ r.2.length)
    (hname : ∀ r, nameAlone s = some r → b.length ≤ r.2.length) :
    StopsAt (exportDefault g g' s) b where
  classDef := by
    intro r hr
    rw [classForm_exportDefault g g' hs, Option.map_eq_some_iff] at hr
    obtain ⟨r, hr, rfl⟩ := hr
    exact hclass r hr
  defaultFunction := by rwa [defaultFunctionForm_exportDefault g g' hs]
  defaultName := by rwa [defaultNameForm_exportDefault g g' hs]
  defaultAlias := by
    intro r hr
    rw [defaultAliasForm_exportDefault] at hr
    cases hr
  wholeModule := by
    intro r hr
    cases hr

omit hs in
/-- Behind the first character nothing is read up to the end of the gap. -/
theorem exists_exportDefault_append {P : List Char → Prop} (hP : ∀ s, Mute s → P s)
    (h : Throughout P s b) (hends : b ≠ [] → ∀ w, endsInWord w s = false) :
    ∃ a, exportDefault g g' (s ++ b) = 'e' :: (a ++ b) ∧ Throughout P a b ∧
      (b ≠ [] → endsInWord false ('e' :: a) = false) := by
  refine ⟨"xport".toList ++ (g.chars ++ ("default".toList ++ (g'.chars ++ s))), ?_, ?_, ?_⟩
  · rw [List.append_assoc, List.append_assoc, List.append_assoc, List.append_assoc]
    rfl
  · have hexport : ∀ b, Throughout P "xport".toList b := fun _ =>
      (Mute.throughout_of_calm rfl rfl).mono hP
    have hdefault : ∀ b, Throughout P "default".toList b := fun _ =>
      (Mute.throughout_of_calm rfl rfl).mono hP
    have hgap : ∀ (g : Gap) (b : List Char), Throughout P g.chars b := fun g _ =>
      g.throughout.mono hP
    exact (hexport _).append ((hgap g _).append ((hdefault _).append ((hgap g' _).append h)))
  · intro hb
    rw [endsInWord, endsInWord_append, endsInWord_append, endsInWord_append, endsInWord_append]
    exact hends hb _

omit hs in
/-- **The exports of a text that is mute behind `export default`** up to the
part `b`. -/
theorem extract_exportDefault_append
    (hsource : blankComments source = exportDefault g g' (s ++ b))
    (hstops : StopsAt (exportDefault g g' (s ++ b)) b)
    (hends : b ≠ [] → ∀ w, endsInWord w s = false) (h : Throughout Mute s b) :
    extract source =
      exportsOf (declaredAtFront (exportDefault g g' (s ++ b)) ++ declarationsOf b) := by
  obtain ⟨a, hcons, hbehind, hword⟩ := exists_exportDefault_append g g' (fun _ => id) h hends
  have halias := defaultAliasForm_exportDefault g g' (s := s ++ b)
  have hfront := onlyDefaults_exportDefault g g' (s := s ++ b)
  have hwhole : CommonJs.wholeForm (exportDefault g g' (s ++ b)) = none := rfl
  rw [hcons] at hsource hstops halias hfront hwhole ⊢
  rw [extract_of_parts hfront hstops hword hbehind hsource, atFront, halias, atFront, hwhole]
  refine congrArg (fun ds => exportsOf (ds ++ declarationsOf b)) ?_
  exact (List.append_nil _).trans (List.append_nil _)

omit hs in
/-- The part may be empty. -/
theorem extract_exportDefault (hsource : blankComments source = exportDefault g g' s)
    (h : Throughout Mute s []) :
    extract source = exportsOf (declaredAtFront (exportDefault g g' s)) := by
  have hnil : s ++ [] = s := List.append_nil s
  have hextract := extract_exportDefault_append g g' (b := []) (by rwa [hnil]) stopsAt_nil
    (absurd rfl) h
  rwa [hnil, declarationsOf_nil, List.append_nil] at hextract

end ExportDefault

/-! ## Names that begin with `function` -/

/-- What is read behind the word `function` of a name that begins with it. -/
def behindFunction? (m : List Char) : Option (List Char) :=
  ((expect "function".toList m).bind name).map Prod.fst

/-- What ends a name for good: nothing that would go on it, no dot, no blanks
and no star. -/
def stops (b : List Char) : Bool :=
  b.head?.all fun c => !isNamePart c && c != '.' && !isBlank c && c != '*'

theorem stops_cons (h : stops (c :: b) = true) :
    isNamePart c = false ∧ c ≠ '.' ∧ isBlank c = false ∧ c ≠ '*' := by
  simpa [stops, and_assoc] using h

theorem endsName_of_stops (h : stops b = true) : endsName b = true := by
  cases b with
  | nil => rfl
  | cons c b =>
    obtain ⟨hpart, hdot, -, -⟩ := stops_cons h
    simp [endsName, hpart, hdot]

theorem someBlanks_of_stops (h : stops b = true) : someBlanks b = none := by
  cases b with
  | nil => rfl
  | cons c b => rw [someBlanks, (stops_cons h).2.2.1, if_neg Bool.false_ne_true]

/-- No name stands there, not even behind a star. -/
theorem name_of_stops (h : stops b = true) :
    name (skipBlanks (optionally (expectChar '*') (skipBlanks b))) = none := by
  cases b with
  | nil => rfl
  | cons c b =>
    obtain ⟨hpart, -, hblank, hstar⟩ := stops_cons h
    have hskip : skipBlanks (c :: b) = c :: b := by
      rw [skipBlanks, List.dropWhile_cons, hblank, if_neg Bool.false_ne_true]
    have hread : expectChar '*' (c :: b) = none := by
      rw [expectChar, expect, if_neg (Ne.symm hstar)]
    have hstart : isNameStart c = false := by
      by_contra hc
      rw [isNamePart_of_isPlainPart (isPlainPart_of_isNameStart (by simpa using hc))] at hpart
      cases hpart
    rw [hskip, optionally, hread, Option.getD_none, hskip, name, hstart, if_neg Bool.false_ne_true]

/-- A name that ends its text is read to the end. -/
theorem name_of_isPlainPart (hm : ∀ d ∈ m, isPlainPart d = true) :
    name (c :: m) = if isNameStart c then some (c :: m, []) else none := by
  have h : name (c :: (m ++ [])) = if isNameStart c then some (c :: m, []) else none :=
    name_append hm rfl
  rwa [List.append_nil] at h

/-- A name is not read as a keyword where no blanks end it. -/
theorem keyword_plain (word : String) (hword : word.toList.all isPlainPart = true)
    (hm : ∀ c ∈ m, isPlainPart c = true) (hb : stops b = true) : keyword word (m ++ b) = none := by
  rw [keyword]
  cases h : expect word.toList (m ++ b) with
  | none => rfl
  | some r =>
    obtain ⟨x, hx, rfl⟩ := expect_word_of_endsName (endsName_of_stops hb) hword h
    cases x with
    | nil => exact someBlanks_of_stops hb
    | cons c x =>
      have hc : isPlainPart c = true := hm c (by rw [hx]; simp)
      rw [Option.bind_some, List.cons_append, someBlanks, isBlank_of_isPlainPart hc]
      rfl

theorem optionally_keyword_plain (word : String) (hword : word.toList.all isPlainPart = true)
    (hm : ∀ c ∈ m, isPlainPart c = true) (hb : stops b = true) :
    optionally (keyword word) (m ++ b) = m ++ b := by
  rw [optionally, keyword_plain word hword hm hb, Option.getD_none]

/-- **Of a name that begins with `function`** the form of a default function
reads the rest. -/
theorem functionName_plain (hm : ∀ c ∈ m, isPlainPart c = true) (hb : stops b = true) :
    EsModule.functionName (m ++ b) = (behindFunction? m).map (·, b) := by
  have hform : ∀ s, EsModule.functionName s = (expect "function".toList s).bind fun s =>
      name (skipBlanks (optionally (expectChar '*') (skipBlanks s))) := fun _ => rfl
  rw [hform, behindFunction?]
  cases h : expect "function".toList m with
  | none =>
    cases hread : expect "function".toList (m ++ b) with
    | none => rfl
    | some r =>
      obtain ⟨x, hx, -⟩ := expect_word_of_endsName (endsName_of_stops hb) rfl hread
      rw [expect_eq_some.mpr hx] at h
      cases h
  | some r =>
    have hr := expect_eq_some.mp h
    rw [expect_eq_some.mpr (show m ++ b = "function".toList ++ (r ++ b) by rw [hr]; simp)]
    cases r with
    | nil => exact name_of_stops hb
    | cons c r =>
      have hrest : ∀ d ∈ r, isPlainPart d = true := fun d hd => hm d (by rw [hr]; simp [hd])
      have hc : isPlainPart c = true := hm c (by rw [hr]; simp)
      have hskip : ∀ t, skipBlanks (c :: t) = c :: t := by
        intro t
        rw [skipBlanks, List.dropWhile_cons, isBlank_of_isPlainPart hc, if_neg Bool.false_ne_true]
      have hstar : ∀ t, expectChar '*' (c :: t) = none := by
        intro t
        rw [expectChar, expect, if_neg (Ne.symm (ne_of_isPlainPart hc rfl))]
      rw [Option.bind_some, List.cons_append, hskip, optionally, hstar, Option.getD_none, hskip,
        name_append hrest (endsName_of_stops hb), Option.bind_some, name_of_isPlainPart hrest]
      split <;> rfl

/-- The rest is what it must be: a name. -/
theorem behindFunction?_eq_some (hm : ∀ c ∈ m, isPlainPart c = true) :
    behindFunction? m = some r ↔
      m = "function".toList ++ r ∧ r.head?.any isNameStart = true := by
  rw [behindFunction?]
  cases h : expect "function".toList m with
  | none =>
    refine ⟨nofun, fun hr => ?_⟩
    rw [expect_eq_some.mpr hr.1] at h
    cases h
  | some t =>
    have ht := expect_eq_some.mp h
    have hname : (name t).map Prod.fst = if t.head?.any isNameStart then some t else none := by
      cases t with
      | nil => rfl
      | cons c t =>
        have hrest : ∀ d ∈ t, isPlainPart d = true := fun d hd => hm d (by rw [ht]; simp [hd])
        rw [name_of_isPlainPart hrest, List.head?_cons, Option.any_some]
        split <;> rfl
    rw [Option.bind_some, hname, ht, List.append_cancel_left_eq, Option.ite_none_right_eq_some,
      Option.some.injEq]
    constructor
    · rintro ⟨hstart, rfl⟩
      exact ⟨rfl, hstart⟩
    · rintro ⟨rfl, hstart⟩
      exact ⟨hstart, rfl⟩

section PlainName

variable (hm : CommonJs.isPlainName m = true) (hb : stops b = true)
include hm hb

theorem className_plainName : className (m ++ b) = none := by
  have hplain := isPlainPart_of_isPlainName hm
  rw [className, optionally_keyword_plain "declare" rfl hplain hb,
    optionally_keyword_plain "abstract" rfl hplain hb, keyword_plain "class" rfl hplain hb]
  rfl

theorem asyncFunctionName_plainName :
    asyncFunctionName (m ++ b) = (behindFunction? m).map (·, b) := by
  have hplain := isPlainPart_of_isPlainName hm
  rw [asyncFunctionName, optionally_keyword_plain "async" rfl hplain hb,
    functionName_plain hplain hb]

theorem nameAlone_plainName :
    nameAlone (m ++ b) = (endOfStatement b).bind fun t => some (m, t) := by
  rw [nameAlone, name_plainName hm (endsName_of_stops hb), Option.bind_some]

end PlainName

/-! ## Reserved words -/

theorem isPlainName_of_reserved : ∀ word ∈ reservedWords,
    CommonJs.isPlainName word.toList = true := by decide

/-- A reserved word that stands alone declares nothing. -/
theorem declareUnreserved_reservedWord (word : String) (hword : word ∈ reservedWords)
    (hb : endsName b = true) : declareUnreserved .defaultExport
      ((nameAlone (word.toList ++ b)).toList.map fun r => (0, r.1)) = [] := by
  rw [nameAlone, name_plainName (isPlainName_of_reserved word hword) hb, Option.bind_some]
  cases endOfStatement b with
  | none => rfl
  | some t =>
    have hin : reservedWords.contains (String.ofList word.toList) = true := by
      simpa using hword
    rw [Option.bind_some, Option.toList_some, List.map_singleton, declareUnreserved, declare,
      List.map_singleton, List.filter_singleton, hin]
    rfl

/-- **A reserved word behind `export default`** is no default export, even if
it stands alone; what is declared is read behind it. -/
theorem declaredAtFront_reservedWord (g g' : Gap) (word : String) (hword : word ∈ reservedWords)
    (hb : endsName b = true) :
    declaredAtFront (exportDefault g g' (word.toList ++ b)) =
      (className (word.toList ++ b)).toList.flatMap (fun r =>
        [⟨0, .classDef, String.ofList r.1⟩, ⟨0, .defaultExport, String.ofList r.1⟩]) ++
      (asyncFunctionName (word.toList ++ b)).toList.map fun r =>
        ⟨0, .defaultExport, String.ofList r.1⟩ := by
  have hplain := isPlainName_of_reserved word hword
  rw [declaredAtFront_exportDefault g g' (skipBlanks_plainName hplain b),
    declareUnreserved_reservedWord word hword hb, List.append_nil]

/-! ## Brackets behind a name -/

/-- What passes over a part of a text stops in front of an open bracket. -/
def StopsAtBracket (pass : List Char → List Char) : Prop :=
  ∀ x c b, (c = '(' ∨ c = '\x7b') → ∃ y, pass (x ++ c :: b) = y ++ c :: b

theorem StopsAtBracket.comp {pass next : List Char → List Char} (h : StopsAtBracket pass)
    (hnext : StopsAtBracket next) : StopsAtBracket fun s => next (pass s) := by
  intro x c b hc
  obtain ⟨y, hy⟩ := h x c b hc
  obtain ⟨z, hz⟩ := hnext y c b hc
  exact ⟨z, by rw [← hz, ← hy]⟩

theorem stopsAtBracket_dropWhile (p : Char → Bool) (hparen : p '(' = false)
    (hbrace : p '\x7b' = false) : StopsAtBracket fun s => s.dropWhile p := by
  intro x c b hc
  have hpc : p c = false := by rcases hc with rfl | rfl <;> assumption
  induction x with
  | nil => exact ⟨[], (List.dropWhile_cons_of_neg (by rw [hpc]; exact Bool.false_ne_true))⟩
  | cons d x ih =>
    dsimp only at ih ⊢
    rw [List.cons_append, List.dropWhile_cons]
    split
    · exact ih
    · exact ⟨d :: x, rfl⟩

theorem stopsAtBracket_expectChar (k : Char) (hparen : k ≠ '(') (hbrace : k ≠ '\x7b') :
    StopsAtBracket (optionally (expectChar k)) := by
  intro x c b hc
  cases x with
  | nil =>
    have hkc : k ≠ c := by rcases hc with rfl | rfl <;> assumption
    exact ⟨[], by rw [List.nil_append, optionally, expectChar, expect, if_neg hkc]; rfl⟩
  | cons d x =>
    rw [List.cons_append, optionally, expectChar, expect]
    split
    · exact ⟨x, rfl⟩
    · exact ⟨d :: x, rfl⟩

theorem eq_dropWhile_of_name (h : name s = some (m, r)) : r = s.dropWhile isNamePart := by
  cases s with
  | nil => cases h
  | cons c s =>
    rw [name] at h
    split at h
    · rename_i hc
      have hpart := isNamePart_of_isPlainPart (isPlainPart_of_isNameStart hc)
      rw [List.dropWhile_cons, if_pos hpart]
      exact (congrArg Prod.snd (Option.some.inj h)).symm
    · cases h

/-- **No name that stands alone is read across an open bracket.** -/
theorem nameAlone_stops {x : List Char} {found : List Char × List Char} (hc : c = '(' ∨ c = '\x7b')
    (h : nameAlone (x ++ c :: b) = some found) : b.length ≤ found.2.length := by
  obtain ⟨⟨m, r⟩, hname, hend⟩ := Option.bind_eq_some_iff.mp h
  obtain ⟨t, ht, hfound⟩ := Option.bind_eq_some_iff.mp hend
  have hspaces := stopsAtBracket_dropWhile (fun c => c == ' ' || c == '\t') rfl rfl
  have hpass := ((((stopsAtBracket_dropWhile isNamePart rfl rfl).comp hspaces).comp
    (stopsAtBracket_expectChar ';' (by decide) (by decide))).comp
    hspaces).comp (stopsAtBracket_expectChar '\r' (by decide) (by decide))
  obtain ⟨y, hy⟩ := hpass x c b hc
  dsimp only at hy
  rw [eq_dropWhile_of_name hname, endOfStatement] at ht
  dsimp only at ht
  rw [hy] at ht
  -- what ends the statement is left over as a whole
  have hleft : t = y ++ c :: b := by
    generalize y ++ c :: b = left at ht
    cases left with
    | nil => exact (Option.some.inj ht).symm
    | cons d left =>
      dsimp only at ht
      split at ht
      · exact (Option.some.inj ht).symm
      · cases ht
  rw [← Option.some.inj hfound, hleft, List.length_append, List.length_cons]
  omega

end Source

end ExportAtlas
