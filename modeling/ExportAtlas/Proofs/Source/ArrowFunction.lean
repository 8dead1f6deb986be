import ExportAtlas.Proofs.Source.Operand
import ExportAtlas.Proofs.Source.TypedConstants
/-!
# Arrow functions

Which arrow functions are recorded as functions. The reader does not count
brackets: it takes the first `>` for the end of the type parameters and the first
`)` for the end of the parameters. An arrow function is read as one all the same
if what follows these goes on as it would behind the true ends, and otherwise it
is not (`isCallable_arrow`).
-/

namespace ExportAtlas

namespace Source

open Text (isBlank cutAt)

variable {c : Char} {s : List Char}

/-! ## The syntax -/

/-- Type parameters, and the blanks behind them. -/
structure TypeParameters where
  inner : List Char
  gap : Blanks

/-- An arrow function of one word for a parameter, or of a parameter list with type
parameters or without. What stands between brackets, and the body, is any
text. -/
inductive ArrowFunction where
  | bare (async? : Option Gap) (x : Word) (g : Blanks) (body : List Char)
  | list (async? : Option Blanks) (types? : Option TypeParameters) (params : List Char)
      (g : Blanks) (body : List Char)

/-- The word `async` and the blanks behind it. -/
def asyncChars : Option Blanks → List Char
  | none => []
  | some g => "async".toList ++ g.chars

/-- Type parameters in front of the text that follows them. -/
def behindTypes (types? : Option TypeParameters) (s : List Char) : List Char :=
  match types? with
  | none => s
  | some t => '<' :: (t.inner ++ '>' :: (t.gap.chars ++ s))

/-- The arrow and the body. -/
def arrowBody (g : Blanks) (body : List Char) : List Char := g.chars ++ ("=>".toList ++ body)

namespace ArrowFunction

/-- The text of an arrow function. -/
def chars : ArrowFunction → List Char
  | bare async? x g body =>
    asyncChars (async?.map Gap.toBlanks) ++ (x.chars ++ arrowBody g body)
  | list async? types? params g body =>
    asyncChars async? ++ behindTypes types? ('(' :: (params ++ ')' :: arrowBody g body))

end ArrowFunction

/-! ## How it is read -/

/-- What stands behind a parenthesis that is taken for the closing one goes on
with an arrow, or with a return type in which an arrow stands for the first
`=`, or none does. -/
def goesOn (rest : List Char) : Bool :=
  match skipBlanks rest with
  | '=' :: '>' :: _ => true
  | ':' :: t => (cutAt '=' t).2.all fun r => r.head? == some '>'
  | _ => false

/-- The text that is taken for what follows the opening parenthesis, up to the
closing one of the parameter list: the parameters, unless another parenthesis
follows the first `>` of the type parameters. -/
def takenFor (params : List Char) : Option TypeParameters → Option (List Char)
  | none => some params
  | some t =>
    match (cutAt '>' t.inner).2 with
    | none => some params
    | some rest => (expectChar '(' (skipBlanks rest)).map fun inside =>
        inside ++ '>' :: (t.gap.chars ++ '(' :: params)

/-- An arrow function is read as one: a bare parameter begins like a name, and
behind the first `)` of a parameter list, if there is one before its end, the
text goes on. -/
def ArrowFunction.isRead : ArrowFunction → Bool
  | bare _ x _ _ => x.chars.head?.any isNameStart
  | list _ types? params _ _ => (takenFor params types?).any fun q => (cutAt ')' q).2.all goesOn

/-! ## Behind the parameters -/

/-- What the reader of a parameter list looks for behind the parenthesis. -/
def arrowFollows (s : List Char) : Bool :=
  atArrow (skipBlanks s) ||
    match expectChar ':' (skipBlanks s) with
    | some s => atArrow (s.dropWhile (· != '='))
    | none => false

theorem isListArrow_eq (s : List Char) : isListArrow s =
    ((expectChar '(' (optionally skipTypeParameters s)).bind (skipPast ')')).any arrowFollows := by
  unfold isListArrow
  cases expectChar '(' (optionally skipTypeParameters s) with
  | none => rfl
  | some s =>
    rw [Option.bind_some]
    dsimp only
    cases skipPast ')' s <;> rfl

theorem arrowFollows_arrowBody (g : Blanks) (body : List Char) :
    arrowFollows (arrowBody g body) = true := by
  rw [arrowFollows, arrowBody, g.skipBlanks_append]
  rfl

theorem skipBlanks_append_cons (hc : isBlank c = false) (a s : List Char) :
    skipBlanks (a ++ c :: s) = skipBlanks a ++ c :: s := by
  rw [skipBlanks, skipBlanks, List.dropWhile_append]
  split
  · rename_i hnil
    rw [List.isEmpty_iff.mp hnil, List.dropWhile_cons, hc, if_neg Bool.false_ne_true,
      List.nil_append]
  · rfl

theorem atArrow_cons (c : Char) (s : List Char) :
    atArrow (c :: s) = (c == '=' && s.head? == some '>') := by
  have hexpect : expect "=>".toList (c :: s) = if '=' = c then expect ['>'] s else none := rfl
  rw [atArrow, hexpect]
  by_cases hc : '=' = c
  · cases s with
    | nil => simp [hc.symm, expect]
    | cons d s =>
      by_cases hd : d = '>'
      · simp [hc.symm, hd, expect]
      · simp [hc.symm, hd, expect, Ne.symm hd]
  · simp [hc, Ne.symm hc]

/-- A return type is passed over up to its first `=`, or to the arrow of the
function. -/
theorem atArrow_returnType (t : List Char) (g : Blanks) (body : List Char) :
    atArrow ((t ++ ')' :: arrowBody g body).dropWhile (· != '=')) =
      (cutAt '=' t).2.all fun r => r.head? == some '>' := by
  by_cases ht : '=' ∈ t
  · obtain ⟨a, b, rfl, ha⟩ := List.eq_append_cons_of_mem ht
    rw [Text.cutAt_append_cons ha, List.append_assoc,
      List.dropWhile_append_of_pos (Text.bne_of_notMem ha), List.cons_append, List.dropWhile_cons,
      if_neg (by decide), atArrow_cons]
    cases b <;> rfl
  · have hgap : '=' ∉ g.chars := fun h => by cases g.isBlank _ h
    rw [Text.cutAt_of_notMem ht, List.dropWhile_append_of_pos (Text.bne_of_notMem ht),
      List.dropWhile_cons, if_pos (by decide), arrowBody,
      List.dropWhile_append_of_pos (Text.bne_of_notMem hgap)]
    rfl

/-- **Whether the text goes on is told by what stands in front of the closing
parenthesis**: if nothing there assigns, the arrow of the function comes
next. -/
theorem arrowFollows_append (rest : List Char) (g : Blanks) (body : List Char) :
    arrowFollows (rest ++ ')' :: arrowBody g body) = goesOn rest := by
  rw [arrowFollows, skipBlanks_append_cons (by decide), goesOn]
  cases skipBlanks rest with
  | nil => rfl
  | cons c t =>
    by_cases hcolon : c = ':'
    · subst hcolon
      exact (congrArg (_ || ·) (atArrow_returnType t g body)).trans (Bool.false_or _)
    · rw [List.cons_append, expectChar_cons_of_ne hcolon, atArrow_cons, Bool.or_false]
      by_cases hassign : c = '='
      · subst hassign
        cases t with
        | nil => rfl
        | cons d t => by_cases hd : d = '>' <;> simp [hd]
      · simp [hassign, hcolon]

/-! ## Up to the parameters -/

theorem skipPast_eq_cutAt (stop : Char) (s : List Char) :
    skipPast stop s = (cutAt stop s).2 := by
  by_cases hs : stop ∈ s
  · obtain ⟨a, b, rfl, ha⟩ := List.eq_append_cons_of_mem hs
    have hstop : ¬ (stop != stop) = true := by simp
    rw [Text.cutAt_append_cons ha, skipPast, List.dropWhile_append_of_pos (Text.bne_of_notMem ha),
      List.dropWhile_cons, if_neg hstop]
  · rw [Text.cutAt_of_notMem hs, skipPast, List.dropWhile_eq_nil_iff.mpr (Text.bne_of_notMem hs)]

/-- The first stop of a text is in its front, if the front has one. -/
theorem skipPast_append_cons (stop : Char) (a b : List Char) : skipPast stop (a ++ stop :: b) =
    some (((cutAt stop a).2.map fun rest => rest ++ stop :: b).getD b) := by
  rw [skipPast_eq_cutAt]
  by_cases ha : stop ∈ a
  · obtain ⟨x, y, rfl, hx⟩ := List.eq_append_cons_of_mem ha
    rw [List.append_assoc, List.cons_append, Text.cutAt_append_cons hx, Text.cutAt_append_cons hx]
    rfl
  · rw [Text.cutAt_append_cons ha, Text.cutAt_of_notMem ha]
    rfl

/-- What is taken for the parameters is left behind the opening parenthesis. -/
theorem expectChar_behindTypes (types? : Option TypeParameters) (params s : List Char) :
    expectChar '(' (optionally skipTypeParameters (behindTypes types? ('(' :: (params ++ s)))) =
      (takenFor params types?).map (· ++ s) := by
  cases types? with
  | none => rfl
  | some t =>
    have hread : ∀ u v, skipPast '>' u = some v →
        optionally skipTypeParameters ('<' :: u) = skipBlanks v := by
      intro u v hu
      change ((skipPast '>' u).bind fun v => some (skipBlanks v)).getD ('<' :: u) = skipBlanks v
      rw [hu]
      rfl
    rw [behindTypes, hread _ _ (skipPast_append_cons ..), takenFor]
    cases (cutAt '>' t.inner).2 with
    | none =>
      rw [Option.map_none, Option.getD_none, t.gap.skipBlanks_append]
      rfl
    | some rest =>
      rw [Option.map_some, Option.getD_some, skipBlanks_append_cons (by decide)]
      dsimp only
      cases skipBlanks rest with
      | nil => rfl
      | cons c inside =>
        by_cases hc : '(' = c
        · subst hc
          change some (inside ++ '>' :: (t.gap.chars ++ '(' :: (params ++ s))) =
            some ((inside ++ '>' :: (t.gap.chars ++ '(' :: params)) ++ s)
          simp
        · rw [List.cons_append, expectChar_cons_of_ne (Ne.symm hc),
            expectChar_cons_of_ne (Ne.symm hc), Option.map_none, Option.map_none]

/-- **The reader of a parameter list** finds an arrow behind what it takes for
the parameters exactly if the text goes on there. -/
theorem isListArrow_behindTypes (types? : Option TypeParameters) (params : List Char) (g : Blanks)
    (body : List Char) :
    isListArrow (behindTypes types? ('(' :: (params ++ ')' :: arrowBody g body))) =
      (takenFor params types?).any fun q => (cutAt ')' q).2.all goesOn := by
  rw [isListArrow_eq, expectChar_behindTypes]
  cases takenFor params types? with
  | none => rfl
  | some q =>
    rw [Option.map_some, Option.bind_some, skipPast_append_cons, Option.any_some, Option.any_some]
    cases (cutAt ')' q).2 with
    | none => exact arrowFollows_arrowBody g body
    | some rest => exact arrowFollows_append rest g body

/-! ## The whole function -/

/-- A text that begins with a bracket, behind blanks and perhaps `async`, is its
own operand. -/
theorem operand_bracketed (lead : Blanks) (async? : Option Blanks) (hc : c = '(' ∨ c = '<') :
    operand (lead.chars ++ (asyncChars async? ++ c :: s)) = c :: s := by
  have hblank : isBlank c = false ∧ c ≠ 'a' ∧ isNamePart c = false ∧ c ≠ '.' := by
    rcases hc with rfl | rfl <;> decide
  rw [operand_append]
  cases async? with
  | none => exact operand_cons hblank.1 hblank.2.1
  | some g =>
    have hends : atWordEnd (g.chars ++ c :: s) = true :=
      atWordEnd_of_endsName (g.endsName_append (by simp [endsName, hblank.2.2.1, hblank.2.2.2]))
    rw [asyncChars, List.append_assoc, operand_async hends, g.skipBlanks_append, skipBlanks,
      List.dropWhile_cons, hblank.1, if_neg Bool.false_ne_true]

/-- A parameter that begins like a name is one. -/
theorem Word.isBareArrow (x : Word) (g : Blanks) (body : List Char)
    (h : x.chars.head?.any isNameStart = true) :
    isBareArrow (x.chars ++ arrowBody g body) = true := by
  have hread : name (x.chars ++ arrowBody g body) = some (x.chars, arrowBody g body) :=
    name_of_isName (x.isName h) (g.endsName_append rfl)
  rw [Source.isBareArrow, hread, arrowBody]
  dsimp only
  rw [g.skipBlanks_append]
  rfl

/-- Behind `async` and blanks, what follows is judged, unless an arrow follows. -/
theorem isCallable_async (lead : Blanks) (gap : Gap) (hs : skipBlanks s = s)
    (harrow : s.head? ≠ some '=') :
    isCallable (lead.chars ++ ("async".toList ++ (gap.chars ++ s))) =
      (isFunctionExpression s || isListArrow s || isBareArrow s) := by
  have hends := gap.endsName_append s
  have hoperand : operand (lead.chars ++ ("async".toList ++ (gap.chars ++ s))) = s := by
    rw [operand_append, operand_async (atWordEnd_of_endsName hends), gap.skipBlanks_append, hs]
  have hasync :
      isBareArrow (skipBlanks (lead.chars ++ ("async".toList ++ (gap.chars ++ s)))) = false := by
    rw [lead.skipBlanks_append]
    exact isBareArrow_async hends (by rwa [gap.skipBlanks_append, hs])
  rw [isCallable_eq, hasync, Bool.false_or, hoperand]

/-- **A bare parameter** makes an arrow function if it begins like a name,
behind `async` or not. -/
theorem isCallable_bare (lead : Blanks) (async? : Option Gap) (x : Word) (g : Blanks)
    (body : List Char) :
    isCallable (lead.chars ++ (ArrowFunction.bare async? x g body).chars) =
      x.chars.head?.any isNameStart := by
  obtain ⟨c, t, hx, hc, hblank⟩ := x.exists_cons
  have hassign : c ≠ '=' ∧ c ≠ '<' ∧ c ≠ '(' := by
    refine ⟨?_, ?_, ?_⟩ <;> rintro rfl <;> cases hc
  have hskip := x.skipBlanks_append (arrowBody g body)
  cases async? with
  | none =>
    have hvalue : skipBlanks (lead.chars ++ (ArrowFunction.bare none x g body).chars) =
        x.chars ++ arrowBody g body := by
      rw [lead.skipBlanks_append]
      exact hskip
    cases hstart : x.chars.head?.any isNameStart with
    | true => rw [isCallable_eq, hvalue, x.isBareArrow g body hstart, Bool.true_or]
    | false =>
      rw [hx, List.head?_cons, Option.any_some] at hstart
      rw [hx, List.cons_append] at hvalue
      exact isCallable_of_skipBlanks hvalue hstart hassign.2.1 hassign.2.2
  | some gap =>
    have hvalue : lead.chars ++ (ArrowFunction.bare (some gap) x g body).chars =
        lead.chars ++ ("async".toList ++ (gap.chars ++ (x.chars ++ arrowBody g body))) :=
      congrArg (lead.chars ++ ·) (List.append_assoc ..)
    have harrow : (x.chars ++ arrowBody g body).head? ≠ some '=' := by
      rw [hx]
      simpa using hassign.1
    rw [hvalue, isCallable_async lead gap hskip harrow]
    cases hstart : x.chars.head?.any isNameStart with
    | true => rw [x.isBareArrow g body hstart, Bool.or_true]
    | false =>
      rw [hx, List.head?_cons, Option.any_some] at hstart
      rw [hx, List.cons_append, isFunctionExpression_cons_of_ne (ne_of_isNameStart rfl hstart),
        isListArrow_cons_of_ne hassign.2.1 hassign.2.2, isBareArrow_cons_of_not_isNameStart hstart]
      rfl

/-- **A parameter list** makes one if the text goes on behind what is taken for
the parameters. -/
theorem isCallable_list (lead : Blanks) (async? : Option Blanks) (types? : Option TypeParameters)
    (params : List Char) (g : Blanks) (body : List Char) :
    isCallable (lead.chars ++ (ArrowFunction.list async? types? params g body).chars) =
      (ArrowFunction.list async? types? params g body).isRead := by
  obtain ⟨c, s, hs, hc⟩ : ∃ c s,
      behindTypes types? ('(' :: (params ++ ')' :: arrowBody g body)) = c :: s ∧
        (c = '(' ∨ c = '<') := by
    cases types? with
    | none => exact ⟨_, _, rfl, .inl rfl⟩
    | some t => exact ⟨_, _, rfl, .inr rfl⟩
  have hoperand : operand (lead.chars ++ (ArrowFunction.list async? types? params g body).chars) =
      c :: s := by
    rw [ArrowFunction.chars, hs]
    exact operand_bracketed lead async? hc
  rw [(bracketed_operand hc hoperand).1, hoperand, ← hs, isListArrow_behindTypes]
  rfl

theorem isCallable_chars (lead : Blanks) (f : ArrowFunction) :
    isCallable (lead.chars ++ f.chars) = f.isRead := by
  cases f with
  | bare async? x g body => exact isCallable_bare lead async? x g body
  | list async? types? params g body => exact isCallable_list lead async? types? params g body

/-! ## Constants that are arrow functions -/

namespace ArrowFunction

variable (f : ArrowFunction)

/-- What an arrow function is declared as. -/
def role : Role := if f.isRead then .function else .constant

theorem exists_cons : ∃ c s, f.chars = c :: s ∧ c ≠ '=' ∧ c ≠ '>' := by
  cases f with
  | bare async? x g body =>
    cases async? with
    | none =>
      obtain ⟨c, t, hx, hc, -⟩ := x.exists_cons
      refine ⟨c, t ++ arrowBody g body, congrArg (· ++ arrowBody g body) hx, ?_, ?_⟩ <;>
        (rintro rfl; cases hc)
    | some gap => exact ⟨'a', _, rfl, by decide, by decide⟩
  | list async? types? params g body =>
    cases async? with
    | none =>
      cases types? with
      | none => exact ⟨'(', _, rfl, by decide, by decide⟩
      | some t => exact ⟨'<', _, rfl, by decide, by decide⟩
    | some gap => exact ⟨'a', _, rfl, by decide, by decide⟩

/-- An arrow function behind an assignment is the initializer. -/
theorem initializer_untyped_chars (w lead : Blanks) :
    EsModule.initializer (untyped w (lead.chars ++ f.chars)) = some (lead.chars ++ f.chars) := by
  obtain ⟨c, s, hf, hassign, harrow⟩ := f.exists_cons
  have hhead : ∀ k, c ≠ k → isBlank k = false → (lead.chars ++ f.chars).head? ≠ some k := by
    intro k hck hk hhead
    cases hlead : lead.chars with
    | nil =>
      rw [hlead, hf, List.nil_append, List.head?_cons] at hhead
      exact hck (Option.some.inj hhead)
    | cons d t =>
      rw [hlead, List.cons_append, List.head?_cons] at hhead
      rw [← Option.some.inj hhead,
        lead.isBlank d (by rw [hlead]; exact List.mem_cons_self ..)] at hk
      cases hk
  exact initializer_untyped w (hhead '=' hassign rfl) (hhead '>' harrow rfl)

end ArrowFunction

/-- **An arrow function is recorded as a function exactly if it is read as
one**, whatever blanks stand in it: as the initializer of a constant, wherever
the constant is found in a text, and of a source that begins with the
constant. -/
theorem isCallable_arrow (lead : Blanks) (f : ArrowFunction) :
    isCallable (lead.chars ++ f.chars) = f.isRead ∧
    (∀ text p n w, (p, n, untyped w (lead.chars ++ f.chars)) ∈
        occurrences EsModule.constantForm text →
      EsModule.declaredAt p text = [⟨p, f.role, String.ofList n⟩]) ∧
    ∀ source g g' n w,
      blankComments source = exportConst g g' n (untyped w (lead.chars ++ f.chars)) →
        (n.string ∈ (extract source).functions ↔ f.isRead = true) ∧
        (n.string ∈ (extract source).constants ↔ f.isRead = false) := by
  have hcallable := isCallable_chars lead f
  refine ⟨hcallable, fun text p n w h => ?_, fun source g g' n w hsource => ?_⟩
  · rw [declaredAt_constant h, constantAt, f.initializer_untyped_chars w lead, Option.map_some,
      valueRole, hcallable]
    rfl
  · rw [← hcallable]
    exact extract_exportConst g g' n (w.endsName_append rfl) hsource
      (f.initializer_untyped_chars w lead)

/-- A listener with a type parameter: the first parenthesis closes the parameters
of its callback, and an arrow stands behind it. -/
theorem isCallable_arrow_listener :
    "on" ∈ (extract "export const on = async <T>(f: (x: T) => void) => f;".toList).functions := by
  let on : Name := ⟨"on".toList, 'o', ['n'], rfl, rfl, List.all_eq_true.mp rfl⟩
  let listener : ArrowFunction := .list (some Gap.space.toBlanks) (some ⟨['T'], ⟨[], nofun⟩⟩)
    "f: (x: T) => void".toList Gap.space.toBlanks " f;".toList
  have hread := (isCallable_arrow Gap.space.toBlanks listener).2.2
    "export const on = async <T>(f: (x: T) => void) => f;".toList .space .space on
    Gap.space.toBlanks (by decide)
  exact hread.1.mpr (by decide)

/-- A function with a call for a default value, and one with type parameters that
have type parameters, are recorded as constants. -/
theorem isCallable_arrow_misread :
    (isCallable " (a = g()) => a;".toList = false ∧
      "f" ∈ (extract "export const f = (a = g()) => a;".toList).constants ∧
      "f" ∉ (extract "export const f = (a = g()) => a;".toList).functions) ∧
    isCallable " <T extends Box<U>>(x: T) => x;".toList = false ∧
      "f" ∈ (extract "export const f = <T extends Box<U>>(x: T) => x;".toList).constants ∧
      "f" ∉ (extract "export const f = <T extends Box<U>>(x: T) => x;".toList).functions := by
  let f : Name := ⟨['f'], 'f', [], rfl, rfl, nofun⟩
  have hcall : isCallable " (a = g()) => a;".toList = false := by decide
  have htypes : isCallable " <T extends Box<U>>(x: T) => x;".toList = false := by decide
  obtain ⟨hcall₁, hcall₂⟩ :
      ("f" ∈ (extract "export const f = (a = g()) => a;".toList).functions ↔
        isCallable " (a = g()) => a;".toList = true) ∧ _ :=
    extract_exportConst .space .space f (s := " = (a = g()) => a;".toList) (by decide) (by decide)
      (by decide)
  obtain ⟨htypes₁, htypes₂⟩ :
      ("f" ∈ (extract "export const f = <T extends Box<U>>(x: T) => x;".toList).functions ↔
        isCallable " <T extends Box<U>>(x: T) => x;".toList = true) ∧ _ :=
    extract_exportConst .space .space f (s := " = <T extends Box<U>>(x: T) => x;".toList)
      (by decide) (by decide) (by decide)
  rw [hcall] at hcall₁
  rw [htypes] at htypes₁
  exact ⟨⟨hcall, hcall₂.mpr hcall, fun h => Bool.false_ne_true (hcall₁.mp h)⟩, htypes,
    htypes₂.mpr htypes, fun h => Bool.false_ne_true (htypes₁.mp h)⟩

end Source

end ExportAtlas
