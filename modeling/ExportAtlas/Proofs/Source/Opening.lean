import ExportAtlas.Proofs.Source.Occurrences
import ExportAtlas.Proofs.Source.Statement
/-!
# What opens a form

Every form begins with one of a few phrases: `export` with a word or an
open brace behind it, `module.`, `mongoose.`, or `exports.`. A text that
begins with none of them is read by no form (`opens` and the lemmas that
end in `_of_not_opens`), so a stretch in which none of them begins is silent
for every form (`calm`).

Names may hold such phrases: behind a `$` a name may go on as `export`. What
closes a name never lets one of them through (`calm_name`).
-/

namespace ExportAtlas

namespace Source

open Text (isBlank isWord)

/-! ## The phrases -/

/-- `export`, with a word behind blanks or an open brace that is not closed
at once. -/
def opensExport (s : List Char) : Bool :=
  match expect "export".toList s with
  | some (c :: rest) =>
    (isBlank c || c == '{') &&
      match skipBlanks (c :: rest) with
      | d :: more => d.isAlpha || (d == '{' && more.head? != some '}')
      | [] => false
  | _ => false

/-- What the forms other than members of `exports` begin with. -/
def opens (s : List Char) : Bool :=
  opensExport s || (expect "module.".toList s).isSome || (expect "mongoose.".toList s).isSome

/-- What members of `exports` begin with. -/
def opensMember (s : List Char) : Bool :=
  (expect "module.".toList s).isSome || (expect "exports.".toList s).isSome

/-! ## No form reads a text that opens none -/

section Silent

variable {s r : List Char} {c k : Char} {ks : List Char}

theorem expect_append (a b s : List Char) :
    expect (a ++ b) s = (expect a s).bind (expect b) := by
  induction a generalizing s with
  | nil => rfl
  | cons k a ih =>
    cases s with
    | nil => rfl
    | cons c s =>
      rw [List.cons_append, expect, expect]
      split
      · exact ih s
      · rfl

theorem expect_eq_some : expect ks s = some r ↔ s = ks ++ r := by
  induction ks generalizing s with
  | nil => simp [expect]
  | cons k ks ih =>
    cases s with
    | nil => simp [expect]
    | cons c s =>
      rw [expect]
      split
      · rename_i hk
        rw [ih, hk, List.cons_append, List.cons.injEq]
        simp
      · rename_i hk
        simp only [List.cons_append, List.cons.injEq, reduceCtorEq, false_iff, not_and]
        intro h
        exact absurd h.symm hk

/-- What is left behind `export` is no word and no open brace, or there are
no blanks in front of it. -/
theorem not_isAlpha_of_exportHead (h : opensExport s = false)
    (hs : EsModule.exportHead s = some (c :: r)) : c.isAlpha = false := by
  unfold EsModule.exportHead keyword at hs
  unfold opensExport at h
  cases he : expect "export".toList s with
  | none => rw [he] at hs; cases hs
  | some t =>
    rw [he] at hs h
    cases t with
    | nil => cases hs
    | cons d t =>
      simp only [Option.bind_some, someBlanks] at hs
      split at hs
      · rename_i hd
        have hskip : skipBlanks (d :: t) = c :: r := by
          rw [skipBlanks, List.dropWhile_cons, if_pos hd]
          exact Option.some.inj hs
        simp only [hskip, hd, Bool.true_or, Bool.true_and, Bool.or_eq_false_iff] at h
        exact h.1
      · cases hs

/-- A word is not read where no letter stands. -/
theorem expect_cons_of_not_isAlpha (hk : k.isAlpha = true) (hc : c.isAlpha = false) :
    expect (k :: ks) (c :: r) = none := by
  rw [expect, if_neg]
  rintro rfl
  rw [hk] at hc
  cases hc

/-- A form that reads a word right behind `export` and blanks fails where
nothing is opened. -/
theorem exportHead_bind_of_not_opens {α : Type} {f : List Char → Option α}
    (hnil : f [] = none) (hf : ∀ c r, c.isAlpha = false → f (c :: r) = none)
    (h : opensExport s = false) : (EsModule.exportHead s).bind f = none := by
  cases hs : EsModule.exportHead s with
  | none => rfl
  | some t =>
    cases t with
    | nil => exact hnil
    | cons c r => exact hf c r (not_isAlpha_of_exportHead h hs)

theorem keyword_of_not_isAlpha (word : String) (hc : c.isAlpha = false)
    (hword : word.toList.head?.any Char.isAlpha = true) :
    keyword word (c :: r) = none := by
  cases hks : word.toList with
  | nil =>
    rw [hks] at hword
    cases hword
  | cons k ks =>
    rw [hks] at hword
    rw [keyword, hks, expect_cons_of_not_isAlpha hword hc]
    rfl

theorem functionForm_of_not_opens (h : opensExport s = false) :
    EsModule.functionForm s = none := by
  refine exportHead_bind_of_not_opens rfl (fun c r hc => ?_) h
  rw [optionally, keyword_of_not_isAlpha "async" hc rfl]
  change (expect ('f' :: "unction".toList) (c :: r)).bind _ = none
  rw [expect_cons_of_not_isAlpha (by rfl) hc]
  rfl

theorem constantForm_of_not_opens (h : opensExport s = false) :
    EsModule.constantForm s = none := by
  refine exportHead_bind_of_not_opens rfl (fun c r hc => ?_) h
  rw [keyword_of_not_isAlpha "const" hc rfl]
  rfl

theorem typeForm_of_not_opens (word : String) (h : opensExport s = false)
    (hword : word.toList.head?.any Char.isAlpha = true) :
    EsModule.typeForm word s = none := by
  refine exportHead_bind_of_not_opens ?_ (fun c r hc => ?_) h
  · change (keyword word []).bind _ = none
    cases hks : word.toList with
    | nil =>
      rw [hks] at hword
      cases hword
    | cons k ks =>
      rw [keyword, hks]
      rfl
  · rw [optionally, keyword_of_not_isAlpha "declare" hc rfl, Option.getD_none,
      keyword_of_not_isAlpha word hc hword]
    rfl

theorem classForm_of_not_opens (h : opensExport s = false) : EsModule.classForm s = none := by
  refine exportHead_bind_of_not_opens rfl (fun c r hc => ?_) h
  simp only [optionally, keyword_of_not_isAlpha "default" hc rfl,
    keyword_of_not_isAlpha "declare" hc rfl, keyword_of_not_isAlpha "abstract" hc rfl,
    keyword_of_not_isAlpha "class" hc rfl, Option.getD_none]
  rfl

theorem defaultFunctionForm_of_not_opens (h : opensExport s = false) :
    EsModule.defaultFunctionForm s = none := by
  refine exportHead_bind_of_not_opens rfl (fun c r hc => ?_) h
  rw [keyword_of_not_isAlpha "default" hc rfl]
  rfl

theorem defaultNameForm_of_not_opens (h : opensExport s = false) :
    EsModule.defaultNameForm s = none := by
  refine exportHead_bind_of_not_opens rfl (fun c r hc => ?_) h
  rw [keyword_of_not_isAlpha "default" hc rfl]
  rfl

/-- An open brace behind `export` is closed at once, and then no alias is
found in it. -/
theorem defaultAliasForm_of_not_opens (h : opensExport s = false) :
    EsModule.defaultAliasForm s = none := by
  unfold opensExport at h
  change (expect "export".toList s).bind _ = none
  cases he : expect "export".toList s with
  | none => rfl
  | some t =>
    rw [he] at h
    change (expectChar '{' (skipBlanks t)).bind (EsModule.findAlias '{') = none
    cases hskip : skipBlanks t with
    | nil => rfl
    | cons d more =>
      by_cases hd : d = '{'
      · subst hd
        cases t with
        | nil => cases hskip
        | cons c rest =>
          have hfront : (isBlank c || c == '{') = true := by
            by_cases hc : isBlank c = true
            · rw [hc]; rfl
            · rw [skipBlanks, List.dropWhile_cons, if_neg hc] at hskip
              rw [(List.cons.inj hskip).1]
              rfl
          simp only [hfront, hskip, Bool.true_and, Bool.or_eq_false_iff, beq_self_eq_true] at h
          cases more with
          | nil => simp at h
          | cons e more =>
            have he : e = '}' := by simpa using h.2
            subst he
            rfl
      · have : expectChar '{' (d :: more) = none := by
          rw [expectChar, expect, if_neg (Ne.symm hd)]
        rw [this]
        rfl

theorem moduleHead_of_not_expect (h : (expect "module.".toList s).isSome = false) :
    CommonJs.moduleHead s = none := by
  have hnone : expect "module.".toList s = none := by simpa using h
  change (expect ("module.".toList ++ "exports".toList) s).bind _ = none
  rw [expect_append, hnone]
  rfl

theorem objectForm_of_not_expect (h : (expect "module.".toList s).isSome = false) :
    CommonJs.objectForm s = none := by
  change (CommonJs.moduleHead s).bind _ = none
  rw [moduleHead_of_not_expect h]
  rfl

theorem wholeForm_of_not_expect (h : (expect "module.".toList s).isSome = false) :
    CommonJs.wholeForm s = none := by
  change (CommonJs.moduleHead s).bind _ = none
  rw [moduleHead_of_not_expect h]
  rfl

theorem modelForm_of_not_expect (h : (expect "mongoose.".toList s).isSome = false) :
    CommonJs.modelForm s = none := by
  have hnone : expect "mongoose.".toList s = none := by simpa using h
  change (expect ("mongoose.".toList ++ "model".toList) s).bind _ = none
  rw [expect_append, hnone]
  rfl

theorem memberForm_of_not_opens (h : opensMember s = false) : CommonJs.memberForm s = none := by
  simp only [opensMember, Bool.or_eq_false_iff, Option.isSome_eq_false_iff,
    Option.isNone_iff_eq_none] at h
  change (expect "exports.".toList (optionally (expect "module.".toList) s)).bind _ = none
  rw [optionally, h.1, Option.getD_none, h.2]
  rfl

end Silent

/-! ## Calm stretches -/

/-- A phrase begins nowhere in a stretch `a` of text that `b` follows. -/
def calm (opens : List Char → Bool) : (a b : List Char) → Bool
  | [], _ => true
  | c :: a, b => !opens (c :: (a ++ b)) && calm opens a b

section Calm

variable {phrase : List Char → Bool} {a b m k : List Char}

theorem calm_append (a a' : List Char) :
    calm phrase (a ++ a') b = (calm phrase a (a' ++ b) && calm phrase a' b) := by
  induction a with
  | nil => rfl
  | cons c a ih => rw [List.cons_append, calm, calm, ih, List.append_assoc, Bool.and_assoc]

/-- **A calm stretch is silent** for every form that needs the phrase. -/
theorem SilentOn.of_calm {α : Type} {scan : Scan α}
    (hscan : ∀ s, phrase s = false → scan s = none) (h : calm phrase a b = true) :
    SilentOn scan a b := by
  induction a with
  | nil =>
    intro x y heq hy
    exact absurd (List.append_eq_nil_iff.mp heq.symm).2 hy
  | cons c a ih =>
    rw [calm, Bool.and_eq_true] at h
    intro x y heq hy
    cases x with
    | nil =>
      rw [← show c :: a = y from heq]
      exact hscan _ (by simpa using h.1)
    | cons d x => exact ih h.2 x y (List.cons.inj heq).2 hy

/-- What may follow a name: no character that would continue it, and no
dot. -/
def endsName (b : List Char) : Bool := b.head?.all fun c => !isNamePart c && c != '.'

/-- What may follow a name: no character that would continue it, no dot, and
nothing that an `export` at the end of the name would open. -/
def closes (b : List Char) : Bool :=
  (b.head?.all fun c => !isNamePart c && c != '.') && !opensExport ("export".toList ++ b)

theorem endsName_of_closes (h : closes b = true) : endsName b = true := by
  rw [closes, Bool.and_eq_true] at h
  exact h.1

theorem not_isPlainPart_of_endsName {c : Char} (h : endsName (c :: b) = true) :
    isPlainPart c = false ∧ c ≠ '.' := by
  simp only [endsName, List.head?_cons, Option.all_some, Bool.and_eq_true, Bool.not_eq_true',
    bne_iff_ne] at h
  refine ⟨?_, h.2⟩
  cases hp : isPlainPart c with
  | false => rfl
  | true => exact absurd (isNamePart_of_isPlainPart hp) (by rw [h.1]; exact Bool.false_ne_true)

/-- A phrase that ends in a dot does not begin inside a name. -/
theorem expect_of_endsName (hm : ∀ c ∈ m, isPlainPart c = true) (hb : endsName b = true)
    (hk : k.all (fun c => isPlainPart c || c == '.') = true) (hdot : '.' ∈ k) :
    expect k (m ++ b) = none := by
  cases h : expect k (m ++ b) with
  | none => rfl
  | some r =>
    have hnodot : '.' ∉ m := fun hc => absurd rfl (ne_of_isPlainPart (hm '.' hc) rfl)
    rcases List.append_eq_append_iff.mp (expect_eq_some.mp h) with ⟨x, hx, hb'⟩ | ⟨x, hx, -⟩
    · cases x with
      | nil => exact absurd (by simpa [hx] using hdot) hnodot
      | cons c x =>
        -- the phrase would run on into what ends the name
        rw [hb'] at hb
        obtain ⟨hplain, hc⟩ := not_isPlainPart_of_endsName hb
        have hkc := List.all_eq_true.mp hk c (by rw [hx]; simp)
        rw [hplain, Bool.false_or, beq_iff_eq] at hkc
        exact absurd hkc hc
    · exact absurd (by rw [hx]; exact List.mem_append_left _ hdot) hnodot

/-- A word that is read where a name stands begins the name. -/
theorem expect_word_of_endsName (hb : endsName b = true) (hk : k.all isPlainPart = true)
    {r : List Char} (h : expect k (m ++ b) = some r) : ∃ x, m = k ++ x ∧ r = x ++ b := by
  rcases List.append_eq_append_iff.mp (expect_eq_some.mp h) with ⟨x, hx, hb'⟩ | h
  · cases x with
    | nil => exact ⟨[], by rw [hx, List.append_nil, List.append_nil], hb'.symm⟩
    | cons c x =>
      rw [hb'] at hb
      have := List.all_eq_true.mp hk c (by rw [hx]; simp)
      rw [(not_isPlainPart_of_endsName hb).1] at this
      cases this
  · exact h

/-- Inside a name no `export` opens anything, but at its end it may. -/
theorem opensExport_of_endsName (hm : ∀ c ∈ m, isPlainPart c = true) (hb : endsName b = true)
    (hne : m ≠ "export".toList) : opensExport (m ++ b) = false := by
  cases h : expect "export".toList (m ++ b) with
  | none =>
    unfold opensExport
    rw [h]
  | some r =>
    obtain ⟨x, hx, hr⟩ := expect_word_of_endsName hb rfl h
    cases x with
    | nil => exact absurd (hx.trans (List.append_nil _)) hne
    | cons c x =>
      -- the name goes on behind the word, with no blank and no brace
      have hc : isPlainPart c = true := hm c (by rw [hx]; simp)
      unfold opensExport
      rw [h, hr]
      have hbrace : (c == '{') = false := beq_false_of_ne (ne_of_isPlainPart hc rfl)
      simp only [List.cons_append, isBlank_of_isPlainPart hc, hbrace, Bool.or_self,
        Bool.false_and]

theorem opens_of_endsName (hm : ∀ c ∈ m, isPlainPart c = true) (hb : endsName b = true)
    (hne : m ≠ "export".toList) : opens (m ++ b) = false := by
  unfold opens
  rw [opensExport_of_endsName hm hb hne, expect_of_endsName hm hb rfl (by decide),
    expect_of_endsName hm hb rfl (by decide)]
  rfl

theorem opensMember_of_endsName (hm : ∀ c ∈ m, isPlainPart c = true) (hb : endsName b = true) :
    opensMember (m ++ b) = false := by
  unfold opensMember
  rw [expect_of_endsName hm hb rfl (by decide), expect_of_endsName hm hb rfl (by decide)]
  rfl

/-- Where `closes` shuts it out, the end of the name opens nothing either. -/
theorem opens_of_closes (hm : ∀ c ∈ m, isPlainPart c = true) (hb : closes b = true) :
    opens (m ++ b) = false := by
  by_cases hne : m = "export".toList
  · rw [closes, Bool.and_eq_true, Bool.not_eq_true'] at hb
    unfold opens
    rw [expect_of_endsName hm hb.1 rfl (by decide), expect_of_endsName hm hb.1 rfl (by decide),
      hne, hb.2]
    rfl
  · exact opens_of_endsName hm (endsName_of_closes hb) hne

theorem opens_cons_of_ne {c : Char} (s : List Char) (he : c ≠ 'e') (hm : c ≠ 'm') :
    opens (c :: s) = false := by
  have h1 : expect "export".toList (c :: s) = none := if_neg (Ne.symm he)
  have h2 : expect "module.".toList (c :: s) = none := if_neg (Ne.symm hm)
  have h3 : expect "mongoose.".toList (c :: s) = none := if_neg (Ne.symm hm)
  unfold opens opensExport
  rw [h1, h2, h3]
  rfl

theorem opensMember_cons_of_ne {c : Char} (s : List Char) (he : c ≠ 'e') (hm : c ≠ 'm') :
    opensMember (c :: s) = false := by
  have h1 : expect "exports.".toList (c :: s) = none := if_neg (Ne.symm he)
  have h2 : expect "module.".toList (c :: s) = none := if_neg (Ne.symm hm)
  unfold opensMember
  rw [h1, h2]
  rfl

/-- What is needed of a phrase: it begins with one of two letters, and does
not begin inside a name. -/
structure IsPhrase (phrase : List Char → Bool) : Prop where
  first : ∀ {c : Char} (s : List Char), c ≠ 'e' → c ≠ 'm' → phrase (c :: s) = false
  name : ∀ {m b : List Char}, (∀ c ∈ m, isPlainPart c = true) → closes b = true →
    phrase (m ++ b) = false

theorem isPhrase_opens : IsPhrase opens := ⟨opens_cons_of_ne, opens_of_closes⟩

theorem isPhrase_opensMember : IsPhrase opensMember :=
  ⟨opensMember_cons_of_ne, fun hm hb => opensMember_of_endsName hm (endsName_of_closes hb)⟩

/-- **Names are calm**: whatever a name holds, what closes it lets no phrase
begin inside it. -/
theorem calm_plain (hp : IsPhrase phrase) (hm : ∀ c ∈ m, isPlainPart c = true)
    (hb : closes b = true) : calm phrase m b = true := by
  induction m with
  | nil => rfl
  | cons c m ih =>
    rw [calm, ← List.cons_append, hp.name hm hb, ih fun d hd => hm d (List.mem_cons_of_mem c hd)]
    rfl

theorem calm_name (hp : IsPhrase phrase) (n : Identifier) (hb : closes b = true) :
    calm phrase n.chars b = true :=
  calm_plain hp (fun _ hc => n.isPlainPart_of_mem hc) hb

/-- A stretch in which no phrase finds its first letter is calm. -/
theorem calm_of_all (hp : IsPhrase phrase) (ha : a.all (fun c => c != 'e' && c != 'm') = true) :
    calm phrase a b = true := by
  induction a with
  | nil => rfl
  | cons c a ih =>
    simp only [List.all_cons, Bool.and_eq_true, bne_iff_ne] at ha
    rw [calm, hp.first _ ha.1.1 ha.1.2, ih ha.2]
    rfl

end Calm

end Source

end ExportAtlas
