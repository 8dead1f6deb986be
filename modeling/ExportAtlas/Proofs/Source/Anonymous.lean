import ExportAtlas.Proofs.Source.AfterDefault
/-!
# Anonymous default exports

A default export without a name declares nothing: the exports of its text are
those of what is inside the expression (`extract_anonymous`), but for two
slips. Of a class that extends another the word `extends` is taken for the
name; and a call of a function whose name begins with `function` is taken for
a declaration of the rest of the name.

Words may be set apart by any blanks, and inside a function or a class any
text may stand.
-/

namespace ExportAtlas

namespace Source

open Text (isBlank isWord)

variable {c : Char} {b m r s source : List Char}

/-! ## The parts of an expression -/

/-- A name in ASCII, reserved or not. -/
structure PlainName where
  chars : List Char
  isPlain : CommonJs.isPlainName chars = true

/-- A mark that stands between names, or behind the last one. -/
def isMark (c : Char) : Bool := c == ',' || c == ':' || c == ')' || c == '\x7d' || c == ';'

/-- Marks, with blanks around them. -/
structure Separator where
  chars : List Char
  isSpacing : ∀ c ∈ chars, (isBlank c || isMark c) = true
  hasMark : ∃ c ∈ chars, isMark c = true

/-- Names with marks behind them, as an object literal and the arguments of a
call list them: `a, b: c };`. -/
structure Listing where
  lead : List Char
  isSpacing : ∀ c ∈ lead, (isBlank c || isMark c) = true
  items : List (PlainName × Separator)

/-- The list as it is written. -/
def Listing.chars (l : Listing) : List Char :=
  l.lead ++ l.items.flatMap fun item => item.1.chars ++ item.2.chars

/-! ## Lists of names -/

theorem ne_of_isSpacing (h : (isBlank c || isMark c) = true) : c ≠ 'e' ∧ c ≠ 'm' := by
  constructor <;> rintro rfl <;> cases h

theorem throughout_of_isSpacing {a : List Char}
    (ha : ∀ c ∈ a, (isBlank c || isMark c) = true) : Throughout Mute a b := by
  have hall : a.all (fun c => c != 'e' && c != 'm') = true :=
    List.all_eq_true.mpr fun c hc => by simpa using ne_of_isSpacing (ha c hc)
  exact .throughout_of_calm (calm_of_all isPhrase_opens hall)
    (calm_of_all isPhrase_opensMember hall)

/-- A mark is no blank, goes on no name and opens nothing. -/
theorem closing_of_isMark (h : isMark c = true) :
    isBlank c = false ∧ endsName (c :: b) = true ∧ c.isAlpha = false ∧ c ≠ '\x7b' := by
  simp only [isMark, Bool.or_eq_true, beq_iff_eq] at h
  rcases h with (((rfl | rfl) | rfl) | rfl) | rfl <;> exact ⟨rfl, rfl, rfl, by decide⟩

/-- Behind blanks the first thing is a mark. -/
theorem exists_skipBlanks_closing_of_isMark {a : List Char}
    (ha : ∀ c ∈ a, (isBlank c || isMark c) = true) (hmark : ∃ c ∈ a, isMark c = true)
    (b : List Char) : ∃ d t, isMark d = true ∧ skipBlanks (a ++ b) = d :: t := by
  induction a with
  | nil => simp at hmark
  | cons c a ih =>
    cases hc : isBlank c with
    | true =>
      have hrest : ∃ d ∈ a, isMark d = true := by
        obtain ⟨d, hd, hd'⟩ := hmark
        rcases List.mem_cons.mp hd with rfl | hd
        · rw [(closing_of_isMark (b := []) hd').1] at hc
          cases hc
        · exact ⟨d, hd, hd'⟩
      obtain ⟨d, t, hd, ht⟩ := ih (fun d hd => ha d (List.mem_cons_of_mem c hd)) hrest
      refine ⟨d, t, hd, ?_⟩
      rw [← ht, skipBlanks, List.cons_append, List.dropWhile_cons, if_pos hc]
      rfl
    | false =>
      refine ⟨c, a ++ b, ?_, ?_⟩
      · have := ha c (List.mem_cons_self ..)
        rwa [hc, Bool.false_or] at this
      · rw [skipBlanks, List.cons_append, List.dropWhile_cons, hc, if_neg Bool.false_ne_true]

/-- **Marks close the name in front of them**: behind blanks the next thing is
a mark, and no word and no open brace. -/
theorem Separator.closes_append (sep : Separator) (b : List Char) :
    closes (sep.chars ++ b) = true := by
  obtain ⟨d, t, hd, hskip⟩ := exists_skipBlanks_closing_of_isMark sep.isSpacing sep.hasMark b
  obtain ⟨-, -, halpha, hbrace⟩ := closing_of_isMark (b := t) hd
  obtain ⟨c, a, hchars⟩ : ∃ c a, sep.chars = c :: a := by
    obtain ⟨e, he, -⟩ := sep.hasMark
    exact List.exists_cons_of_ne_nil (List.ne_nil_of_mem he)
  have hends : endsName (sep.chars ++ b) = true := by
    have hc := sep.isSpacing c (by rw [hchars]; exact List.mem_cons_self ..)
    rw [hchars]
    rcases Bool.or_eq_true_iff.mp hc with hblank | hmark
    · exact endsName_of_isBlank hblank
    · exact (closing_of_isMark hmark).2.1
  have hexport : opensExport ("export".toList ++ (sep.chars ++ b)) = false := by
    have hread : expect "export".toList ("export".toList ++ (sep.chars ++ b)) =
        some (c :: (a ++ b)) := expect_eq_some.mpr (by rw [hchars]; rfl)
    rw [hchars] at hskip
    unfold opensExport
    rw [hread]
    simp only [List.cons_append] at hskip
    simp only [hskip, halpha, beq_false_of_ne hbrace, Bool.false_and, Bool.or_self, Bool.and_false]
  unfold endsName at hends
  rw [closes, hends, hexport]
  rfl

/-- Nothing is read in a list of names. -/
theorem Listing.unread (l : Listing) : Throughout Mute l.chars [] := by
  refine (throughout_of_isSpacing l.isSpacing).append ?_
  induction l.items with
  | nil => exact .nil
  | cons item items ih =>
    rw [List.flatMap_cons, List.append_assoc]
    refine (Mute.throughout_of_closes (isPlainPart_of_isPlainName item.1.isPlain) ?_).append
      ((throughout_of_isSpacing item.2.isSpacing).append ih)
    rw [List.append_assoc]
    exact item.2.closes_append _

/-! ## Expressions without a name -/

/-- A stretch of a text ends in an open bracket. -/
def EndsInBracket (s : List Char) : Prop := ∃ x c, s = x ++ [c] ∧ (c = '(' ∨ c = '\x7b')

theorem EndsInBracket.singleton (h : c = '(' ∨ c = '\x7b') : EndsInBracket [c] :=
  ⟨[], c, rfl, h⟩

theorem EndsInBracket.append (a : List Char) (h : EndsInBracket s) : EndsInBracket (a ++ s) := by
  obtain ⟨x, c, rfl, hc⟩ := h
  exact ⟨a ++ x, c, (List.append_assoc ..).symm, hc⟩

/-- What stands behind `export default` without giving it a name. -/
inductive Anonymous where
  /-- `function (…) { … }`, perhaps `async`, perhaps a generator; `rest` is
  what stands behind the open parenthesis. -/
  | function (async? : Option Gap) (g : Blanks) (star? : Option Blanks) (rest : List Char)
  /-- `(…) => …`, perhaps `async`. -/
  | arrow (async? : Option Blanks) (rest : List Char)
  /-- `class { … }` -/
  | classDef (g : Blanks) (rest : List Char)
  /-- `class extends B { … }` -/
  | heir (g g' : Gap) (base : PlainName) (g'' : Blanks) (rest : List Char)
  /-- `{ K, L: M, … }` -/
  | object (properties : Listing)
  /-- `f(a, …)` -/
  | call (callee : PlainName) (arguments : Listing)

namespace Anonymous

/-- The expression up to the bracket behind which any text may stand, or the
whole of it where there is no such bracket. -/
def head : Anonymous → List Char
  | function async? g star? _ =>
    (async?.elim [] fun g => "async".toList ++ g.chars) ++ ("function".toList ++ (g.chars ++
      ((star?.elim [] fun g => '*' :: g.chars) ++ ['('])))
  | arrow async? _ => (async?.elim [] fun g => "async".toList ++ g.chars) ++ ['(']
  | classDef g _ => "class".toList ++ (g.chars ++ ['\x7b'])
  | heir g g' base g'' _ =>
    "class".toList ++ (g.chars ++ ("extends".toList ++ (g'.chars ++ (base.chars ++
      (g''.chars ++ ['\x7b'])))))
  | object properties => '\x7b' :: properties.chars
  | call callee arguments => callee.chars ++ '(' :: arguments.chars

/-- The text behind that bracket, up to the end of the source. -/
def inside : Anonymous → List Char
  | function _ _ _ rest | arrow _ rest | classDef _ rest | heir _ _ _ _ rest => rest
  | object _ | call _ _ => []

/-- The expression as it is written, with all that follows it. -/
def chars : Anonymous → List Char
  | function async? g star? rest =>
    (async?.elim [] fun g => "async".toList ++ g.chars) ++ ("function".toList ++ (g.chars ++
      ((star?.elim [] fun g => '*' :: g.chars) ++ '(' :: rest)))
  | arrow async? rest => (async?.elim [] fun g => "async".toList ++ g.chars) ++ '(' :: rest
  | classDef g rest => "class".toList ++ (g.chars ++ '\x7b' :: rest)
  | heir g g' base g'' rest =>
    "class".toList ++ (g.chars ++ ("extends".toList ++ (g'.chars ++ (base.chars ++
      (g''.chars ++ '\x7b' :: rest)))))
  | object properties => '\x7b' :: properties.chars
  | call callee arguments => callee.chars ++ '(' :: arguments.chars

theorem chars_eq (e : Anonymous) : e.chars = e.head ++ e.inside := by
  have hbehind : ∀ (a : List Char) {s t b : List Char}, s = t ++ b → a ++ s = a ++ t ++ b := by
    rintro a s t b rfl
    exact (List.append_assoc ..).symm
  cases e with
  | function async? g star? rest =>
    exact hbehind _ (hbehind _ (hbehind _ (hbehind _ rfl)))
  | arrow async? rest => exact hbehind _ rfl
  | classDef g rest => exact hbehind _ (hbehind _ rfl)
  | heir g g' base g'' rest =>
    exact hbehind _ (hbehind _ (hbehind _ (hbehind _ (hbehind _ (hbehind _ rfl)))))
  | object | call => exact (List.append_nil _).symm

/-- The head ends in a bracket. -/
theorem endsInBracket_head (e : Anonymous) (h : e.inside ≠ []) : EndsInBracket e.head := by
  cases e with
  | function async? g star? rest =>
    exact .append _ (.append _ (.append _ (.append _ (.singleton (.inl rfl)))))
  | arrow async? rest => exact .append _ (.singleton (.inl rfl))
  | classDef g rest => exact .append _ (.append _ (.singleton (.inr rfl)))
  | heir g g' base g'' rest =>
    exact .append _ (.append _ (.append _ (.append _ (.append _ (.append _
      (.singleton (.inr rfl)))))))
  | object | call => exact absurd rfl h

/-- What is declared of the expression itself: of a class that extends another
and of a call of a function whose name begins with `function`. -/
def declared : Anonymous → List Declaration
  | heir _ _ _ _ _ => [⟨0, .classDef, "extends"⟩, ⟨0, .defaultExport, "extends"⟩]
  | call callee _ =>
    (behindFunction? callee.chars).toList.map fun r => ⟨0, .defaultExport, String.ofList r⟩
  | _ => []

/-- A name is read that is none: the word `extends`, or what stands behind
`function` in the name of a function that is called. -/
def IsMisread : Anonymous → Prop
  | heir _ _ _ _ _ => True
  | call callee _ =>
    ∃ r, callee.chars = "function".toList ++ r ∧ r.head?.any isNameStart = true
  | _ => False

theorem declared_eq_nil (e : Anonymous) : e.declared = [] ↔ ¬ e.IsMisread := by
  cases e with
  | heir g g' base g'' rest => exact ⟨nofun, fun h => absurd trivial h⟩
  | call callee arguments =>
    have hread : ∀ r, behindFunction? callee.chars = some r ↔
        callee.chars = "function".toList ++ r ∧ r.head?.any isNameStart = true :=
      fun r => behindFunction?_eq_some (isPlainPart_of_isPlainName callee.isPlain)
    rw [declared, IsMisread, ← exists_congr hread]
    cases behindFunction? callee.chars with
    | none =>
      refine ⟨fun _ => ?_, fun _ => rfl⟩
      rintro ⟨r, hr⟩
      cases hr
    | some r => exact ⟨nofun, fun h => absurd ⟨r, rfl⟩ h⟩
  | _ => exact ⟨fun _ => id, fun _ => rfl⟩

/-- A declaration makes an export. -/
theorem exportsOf_declared (e : Anonymous) :
    exportsOf e.declared = Exports.empty ↔ e.declared = [] := by
  refine ⟨fun h => ?_, fun h => by rw [h]; rfl⟩
  cases e with
  | heir g g' base g'' rest => cases h
  | call callee arguments =>
    rw [declared] at h ⊢
    cases hread : behindFunction? callee.chars with
    | none => rfl
    | some r =>
      rw [hread] at h
      cases h
  | _ => rfl

/-! ### Its first words -/

/-- What is read as the name of a class. -/
def className? : Anonymous → Option (List Char × List Char)
  | heir _ g' base g'' rest =>
    some ("extends".toList, g'.chars ++ (base.chars ++ (g''.chars ++ '\x7b' :: rest)))
  | _ => none

/-- What is read as the name of a function. -/
def functionName? : Anonymous → Option (List Char × List Char)
  | call callee arguments => (behindFunction? callee.chars).map (·, '(' :: arguments.chars)
  | _ => none

end Anonymous

/-- Behind the word `function` there is no name in front of the parenthesis. -/
theorem functionName_anonymous (g : Blanks) (star? : Option Blanks) (t : List Char) :
    EsModule.functionName ("function".toList ++ (g.chars ++
      ((star?.elim [] fun g => '*' :: g.chars) ++ '(' :: t))) = none := by
  have hform : ∀ s, EsModule.functionName ("function".toList ++ s) =
      name (skipBlanks (optionally (expectChar '*') (skipBlanks s))) := fun _ => rfl
  rw [hform, g.skipBlanks_append]
  cases star? with
  | none => rfl
  | some g' =>
    change name (skipBlanks (g'.chars ++ '(' :: t)) = none
    rw [g'.skipBlanks_append]
    rfl

/-- Nor behind `async`, with or without blanks in between. -/
theorem asyncFunctionName_async (g : Blanks) (t : List Char) :
    asyncFunctionName ("async".toList ++ (g.chars ++ '(' :: t)) = none := by
  rcases g.eq_nil_or_gap with hg | ⟨g', hg⟩
  · rw [hg]
    rfl
  · rw [hg, asyncFunctionName, optionally, g'.keyword_append]
    rfl

theorem className_class (g : Gap) (s : List Char) :
    className ("class".toList ++ (g.chars ++ s)) = name (skipBlanks s) := by
  have hform : ∀ s, className ("class".toList ++ s) =
      (keyword "class" ("class".toList ++ s)).bind name := fun _ => rfl
  rw [hform, g.keyword_append, Option.bind_some]

/-- Behind the word `class` there is no name in front of the brace. -/
theorem className_anonymous (g : Blanks) (t : List Char) :
    className ("class".toList ++ (g.chars ++ '\x7b' :: t)) = none := by
  rcases g.eq_nil_or_gap with hg | ⟨g', hg⟩
  · rw [hg]
    rfl
  · rw [hg, className_class]
    rfl

/-- But `extends` is a name like any other. -/
theorem className_extends (g g' : Gap) (t : List Char) :
    className ("class".toList ++ (g.chars ++ ("extends".toList ++ (g'.chars ++ t)))) =
      some ("extends".toList, g'.chars ++ t) := by
  have hplain : CommonJs.isPlainName "extends".toList = true := rfl
  rw [className_class, skipBlanks_plainName hplain, name_plainName hplain (g'.endsName_append t)]

namespace Anonymous

variable (e : Anonymous)

theorem skipBlanks_chars : skipBlanks e.chars = e.chars := by
  cases e with
  | call callee arguments => exact skipBlanks_plainName callee.isPlain _
  | function async? | arrow async? => cases async? <;> rfl
  | _ => rfl

theorem className_chars : className e.chars = e.className? := by
  cases e with
  | function async? | arrow async? => cases async? <;> rfl
  | classDef g rest => exact className_anonymous g rest
  | heir g g' base g'' rest => exact className_extends g g' _
  | object => rfl
  | call callee arguments => exact className_plainName callee.isPlain rfl

theorem asyncFunctionName_chars : asyncFunctionName e.chars = e.functionName? := by
  cases e with
  | function async? g star? rest =>
    have hword : ∀ s, asyncFunctionName ("function".toList ++ s) =
      EsModule.functionName ("function".toList ++ s) := fun _ => rfl
    cases async? with
    | none => exact (hword _).trans (functionName_anonymous g star? rest)
    | some g' =>
      refine Eq.trans ?_ (functionName_anonymous g star? rest)
      change asyncFunctionName ("async".toList ++ g'.chars ++ ("function".toList ++ _)) = _
      rw [List.append_assoc, asyncFunctionName, optionally, g'.keyword_append]
      rfl
  | arrow async? rest =>
    cases async? with
    | none => rfl
    | some g =>
      change asyncFunctionName ("async".toList ++ g.chars ++ '(' :: rest) = none
      rw [List.append_assoc, asyncFunctionName_async]
  | call callee arguments => exact asyncFunctionName_plainName callee.isPlain rfl
  | _ => rfl

/-- No name stands alone: a word that could is reserved. -/
theorem nameAlone_chars : declareUnreserved .defaultExport
    ((nameAlone e.chars).toList.map fun r => (0, r.1)) = [] := by
  cases e with
  | function async? g star? rest =>
    cases async? with
    | none =>
      exact declareUnreserved_reservedWord "function" (by decide)
        (g.endsName_append (by cases star? <;> rfl))
    | some g' =>
      change declareUnreserved .defaultExport
        ((nameAlone ("async".toList ++ g'.chars ++ _)).toList.map fun r => (0, r.1)) = []
      rw [List.append_assoc]
      exact declareUnreserved_reservedWord "async" (by decide) (g'.endsName_append _)
  | arrow async? rest =>
    cases async? with
    | none => rfl
    | some g =>
      change declareUnreserved .defaultExport
        ((nameAlone ("async".toList ++ g.chars ++ '(' :: rest)).toList.map fun r => (0, r.1)) = []
      rw [List.append_assoc]
      exact declareUnreserved_reservedWord "async" (by decide) (g.endsName_append rfl)
  | classDef g rest =>
    exact declareUnreserved_reservedWord "class" (by decide) (g.endsName_append rfl)
  | heir g g' base g'' rest =>
    exact declareUnreserved_reservedWord "class" (by decide) (g.endsName_append _)
  | object => rfl
  | call callee arguments =>
    have hread : nameAlone (callee.chars ++ '(' :: arguments.chars) = none :=
      nameAlone_plainName callee.isPlain rfl
    change declareUnreserved .defaultExport
      ((nameAlone (callee.chars ++ '(' :: arguments.chars)).toList.map fun r => (0, r.1)) = []
    rw [hread]
    rfl

end Anonymous

/-! ## Each expression behind `export default` -/

section Expressions

variable (k k' : Gap) (e : Anonymous)

/-- **What is declared** where an expression stands behind `export default`. -/
theorem declaredAtFront_anonymous :
    declaredAtFront (exportDefault k k' e.chars) = e.declared := by
  rw [declaredAtFront_exportDefault k k' e.skipBlanks_chars, e.className_chars,
    e.asyncFunctionName_chars, e.nameAlone_chars, List.append_nil]
  cases e with
  | call callee arguments =>
    simp only [Anonymous.className?, Anonymous.functionName?, Anonymous.declared]
    cases behindFunction? callee.chars <;> rfl
  | _ => rfl

/-- Nothing is read across the bracket. -/
theorem stopsAt_anonymous : StopsAt (exportDefault k k' e.chars) e.inside := by
  by_cases hinside : e.inside = []
  · rw [hinside]
    exact stopsAt_nil
  · obtain ⟨x, c, hhead, hc⟩ := e.endsInBracket_head hinside
    refine stopsAt_exportDefault k k' e.skipBlanks_chars (fun r hr => ?_) (fun r hr => ?_)
      fun r hr => ?_
    · rw [e.className_chars] at hr
      cases e <;> cases hr
      simp only [Anonymous.inside, List.length_append, List.length_cons]
      omega
    · rw [e.asyncFunctionName_chars] at hr
      cases e with
      | call => exact absurd rfl hinside
      | _ => cases hr
    · rw [e.chars_eq, hhead, List.append_assoc] at hr
      exact nameAlone_stops hc hr

/-- Behind a bracket a word may begin. -/
theorem endsInWord_anonymous (h : e.inside ≠ []) (w : Bool) : endsInWord w e.head = false := by
  obtain ⟨x, c, hhead, hc⟩ := e.endsInBracket_head h
  rw [hhead, endsInWord_append]
  rcases hc with rfl | rfl <;> rfl

theorem throughout_elim {α : Type} {f : α → List Char} (h : ∀ x, Throughout Mute (f x) b)
    (o : Option α) : Throughout Mute (o.elim [] f) b := by
  cases o with
  | none => exact .nil
  | some x => exact h x

/-- A character that begins no phrase. -/
theorem Mute.of_cons (he : c ≠ 'e') (hm : c ≠ 'm') : Mute (c :: s) :=
  .of_not_opens (opens_cons_of_ne s he hm) (opensMember_cons_of_ne s he hm)

/-- A bracket is mute. -/
theorem Mute.throughout_singleton (he : c ≠ 'e') (hm : c ≠ 'm') : Throughout Mute [c] b :=
  .cons (.of_cons he hm) .nil

/-- Nothing is read behind `export default` up to the bracket, unless it is a
name that is extended. -/
theorem Anonymous.throughout_mute (h : ∀ g g' base g'' rest, e ≠ .heir g g' base g'' rest) :
    Throughout Mute e.head e.inside := by
  have hword : ∀ {w b}, calm opens w b = true → calm opensMember w b = true →
      Throughout Mute w b := Mute.throughout_of_calm
  have hparen : ∀ b, Throughout Mute ['('] b := fun _ =>
    Mute.throughout_singleton (by decide) (by decide)
  have hbrace : ∀ b, Throughout Mute ['\x7b'] b := fun _ =>
    Mute.throughout_singleton (by decide) (by decide)
  cases e with
  | function async? g star? rest =>
    have hasync : ∀ b, Throughout Mute (async?.elim [] fun g => "async".toList ++ g.chars) b :=
      fun b => throughout_elim (fun g => (hword rfl rfl).append g.throughout) async?
    have hstar : ∀ b, Throughout Mute (star?.elim [] fun g => '*' :: g.chars) b := fun b =>
      throughout_elim (fun g => .cons (.of_cons (by decide) (by decide)) g.throughout) star?
    exact (hasync _).append ((hword rfl rfl).append (g.throughout.append ((hstar _).append
      (hparen _))))
  | arrow async? rest =>
    have hasync : ∀ b, Throughout Mute (async?.elim [] fun g => "async".toList ++ g.chars) b :=
      fun b => throughout_elim (fun g => (hword rfl rfl).append g.throughout) async?
    exact (hasync _).append (hparen _)
  | classDef g rest => exact (hword rfl rfl).append (g.throughout.append (hbrace _))
  | heir g g' base g'' rest => exact absurd rfl (h g g' base g'' rest)
  | object properties => exact .cons (.of_cons (by decide) (by decide)) properties.unread
  | call callee arguments =>
    refine (Mute.throughout_of_closes (isPlainPart_of_isPlainName callee.isPlain) rfl).append ?_
    exact .cons (.of_cons (by decide) (by decide)) arguments.unread

/-! ## A class that extends another -/

/-- An `export` in front of a brace opens an alias at most. -/
theorem unread_brace (g : Blanks) (t : List Char) :
    Unread ("export".toList ++ (g.chars ++ '\x7b' :: t)) := by
  have hhead : ∀ {α : Type} {f : List Char → Option α}, f ('\x7b' :: t) = none →
      (EsModule.exportHead ("export".toList ++ (g.chars ++ '\x7b' :: t))).bind f = none := by
    intro α f hf
    rcases g.eq_nil_or_gap with hg | ⟨g', hg⟩
    · rw [hg]
      rfl
    · rw [hg, EsModule.exportHead, g'.keyword_append]
      exact hf
  have hmember : CommonJs.memberForm ("export".toList ++ (g.chars ++ '\x7b' :: t)) = none :=
    memberForm_of_not_opens (opensMember_of_endsName (List.all_eq_true.mp rfl) (g.endsName_append rfl))
  exact ⟨⟨hhead rfl, hhead rfl, hhead rfl, hhead rfl, hmember, rfl, rfl⟩, hhead rfl, hhead rfl,
    hhead rfl, rfl⟩

theorem throughout_heir (g g' : Gap) (base : PlainName) (g'' : Blanks) (rest : List Char) :
    Throughout Unread (Anonymous.heir g g' base g'' rest).head
      (Anonymous.heir g g' base g'' rest).inside := by
  have hword : ∀ {w b}, calm opens w b = true → calm opensMember w b = true →
      Throughout Unread w b := fun h h' => (Mute.throughout_of_calm h h').mono fun _ h => h.toUnread
  have hgap : ∀ (g : Blanks) (b : List Char), Throughout Unread g.chars b := fun g _ =>
    g.throughout.mono fun _ h => h.toUnread
  have hbase : Throughout Unread base.chars (g''.chars ++ ['\x7b'] ++ rest) := by
    rw [List.append_assoc]
    exact throughout_of_endsName (fun _ h => h.toUnread) (isPlainPart_of_isPlainName base.isPlain)
      (g''.endsName_append rfl) (unread_brace g'' rest)
  have hbrace : Throughout Unread ['\x7b'] rest :=
    (Mute.throughout_singleton (by decide) (by decide)).mono fun _ h => h.toUnread
  exact (hword rfl rfl).append ((hgap g.toBlanks _).append ((hword rfl rfl).append
    ((hgap g'.toBlanks _).append (hbase.append ((hgap g'' _).append hbrace)))))

/-! ## The exports -/

/-- **The exports of an anonymous default export** are those of what is inside
it, behind what is declared of the expression itself. -/
theorem extract_eq_exportsOf (hsource : blankComments source = exportDefault k k' e.chars) :
    extract source = exportsOf (e.declared ++ declarationsOf e.inside) := by
  have hdeclared := declaredAtFront_anonymous k k' e
  have hstops := stopsAt_anonymous k k' e
  have hends := endsInWord_anonymous e
  by_cases hheir : ∃ g g' base g'' rest, e = .heir g g' base g'' rest
  · obtain ⟨g, g', base, g'', rest, rfl⟩ := hheir
    obtain ⟨a, hcons, hbehind, hword⟩ := exists_exportDefault_append k k'
      (fun _ h => h.toUnread) (throughout_heir g g' base g'' rest) hends
    have hfront := onlyDefaults_exportDefault k k' (s := (Anonymous.heir g g' base g'' rest).chars)
    have halias := defaultAliasForm_exportDefault k k'
      (s := (Anonymous.heir g g' base g'' rest).chars)
    have hwhole : CommonJs.wholeForm
        (exportDefault k k' (Anonymous.heir g g' base g'' rest).chars) = none := rfl
    rw [Anonymous.chars_eq] at hsource hdeclared hstops hfront halias hwhole
    rw [hcons] at hsource hdeclared hstops hfront halias hwhole
    rw [extract_of_front_aliases hsource ⟨hfront, hstops, hword, hbehind⟩ halias hwhole
      ⟨⟨0, .defaultExport, "extends"⟩, ?_, rfl⟩, hdeclared]
    rw [hdeclared]
    exact List.mem_cons_of_mem _ (List.mem_cons_self ..)
  · have hmute : Throughout Mute e.head e.inside :=
      e.throughout_mute fun g g' base g'' rest h => hheir ⟨g, g', base, g'', rest, h⟩
    rw [e.chars_eq] at hsource hdeclared hstops
    rw [extract_exportDefault_append k k' hsource hstops hends hmute, hdeclared]

/-- If nothing is inside, only the expression itself counts. -/
theorem extract_eq_declared (hsource : blankComments source = exportDefault k k' e.chars)
    (hinside : SpeaksOfNone e.inside) : extract source = exportsOf e.declared := by
  rw [extract_eq_exportsOf k k' e hsource,
    declarationsOf_eq_nil (throughout_of_speaksOfNone hinside), List.append_nil]

/-- **An anonymous default export records nothing** but what is inside it,
wherever comments stand in its source, except for the two expressions of which
a name is read; what is declared of those is told by `declared`. -/
theorem extract_anonymous (hsource : blankComments source = exportDefault k k' e.chars) :
    extract source = exportsOf (e.declared ++ declarationsOf e.inside) ∧
    (SpeaksOfNone e.inside → (extract source = Exports.empty ↔ ¬ e.IsMisread)) := by
  refine ⟨extract_eq_exportsOf k k' e hsource, fun hinside => ?_⟩
  rw [extract_eq_declared k k' e hsource hinside, e.exportsOf_declared, e.declared_eq_nil]

end Expressions

/-- A class without a name, with a comment where the name would be. -/
theorem extract_anonymous_class :
    extract "export default class /* no name */ \x7b run() \x7b return 1; \x7d \x7d\n".toList =
      Exports.empty :=
  ((extract_anonymous .space .space
    (.classDef ⟨List.replicate 15 ' ', List.all_eq_true.mp rfl⟩ " run() \x7b return 1; \x7d \x7d\n".toList)
    (by decide)).2 ⟨by decide, by decide⟩).mpr id

/-- A class without a name is recorded as `extends` if it extends another, and
a call of `functionFoo` is recorded as `Foo`. -/
theorem extract_anonymous_misread :
    extract "export default class extends Base \x7b\x7d".toList =
      { Exports.empty with classes := ["extends"], defaultExport := some "extends" } ∧
    extract "export default functionFoo(a);".toList =
      { Exports.empty with defaultExport := some "Foo" } := by
  constructor
  · exact (extract_eq_declared .space .space (.heir .space .space ⟨"Base".toList, by decide⟩
      Gap.space.toBlanks "\x7d".toList) (by decide) ⟨by decide, by decide⟩).trans (by decide)
  · exact (extract_eq_declared .space .space (.call ⟨"functionFoo".toList, by decide⟩
      ⟨[], nofun, [(⟨"a".toList, rfl⟩,
        ⟨");".toList, List.all_eq_true.mp rfl, List.any_eq_true.mp rfl⟩)]⟩)
      (by decide) ⟨by decide, by decide⟩).trans (by decide)

end Source

end ExportAtlas
