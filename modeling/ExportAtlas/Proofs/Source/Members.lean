import ExportAtlas.Proofs.Source.Operand
import ExportAtlas.Proofs.Source.TypedConstants
/-!
# Members and constants

A member of `exports` and an ES constant may be assigned the same value, and it
is not always a function in both kinds of module. They part at two kinds of
values: in CommonJS an open parenthesis is taken for a parameter list whatever
follows it, and an arrow function with type parameters is taken for none
(`isCallableAssignment_eq_isCallable`).
-/

namespace ExportAtlas

namespace Source

variable {n source text value : List Char} {p : Nat}

/-! ## What a member declares -/

/-- **At the place of a member** the member forms declare the member and nothing
else. -/
theorem filter_members_of_mem (h : (p, n, value) ∈ occurrences CommonJs.memberForm text) :
    (CommonJs.members text).filter (fun d => d.position == p) = memberAt p n value := by
  rw [filter_members, filter_occurrences_of_mem h, List.flatMap_singleton]

/-- A comparison is no function. -/
theorem not_isCallableAssignment_of_eq (h : value.head? = some '=') :
    isCallableAssignment value = false := by
  obtain ⟨s, rfl⟩ := List.head?_eq_some_iff.mp h
  exact isCallableAssignment_of_skipBlanks (c := '=') (s := s) rfl rfl (by decide)

/-- **A member is declared a function if its value reads as one.** -/
theorem mem_members (h : (p, n, value) ∈ occurrences CommonJs.memberForm text) :
    ⟨p, .function, String.ofList n⟩ ∈ CommonJs.members text ↔
      isCallableAssignment value = true := by
  have hat : ⟨p, .function, String.ofList n⟩ ∈ CommonJs.members text ↔
      ⟨p, .function, String.ofList n⟩ ∈ memberAt p n value := by
    rw [← filter_members_of_mem h]
    simp
  rw [hat, memberAt]
  split_ifs with heq
  · simp [not_isCallableAssignment_of_eq heq]
  · simp [*]
  · simp [*]
  · simp [*]

/-- **And so is a constant.** A comparison and an arrow right behind its name are
no initializer, and no function. -/
theorem mem_declarations {w : Blanks}
    (h : (p, n, untyped w value) ∈ occurrences EsModule.constantForm text) :
    ⟨p, .function, String.ofList n⟩ ∈ EsModule.declarations text ↔ isCallable value = true := by
  have hat : ⟨p, .function, String.ofList n⟩ ∈ EsModule.declarations text ↔
      ⟨p, .function, String.ofList n⟩ ∈ constantAt p n (untyped w value) := by
    rw [← declaredAt_constant h, EsModule.declaredAt]
    simp
  rw [hat, constantAt]
  by_cases hnone : value.head? = some '=' ∨ value.head? = some '>'
  · have hvalue : isCallable value = false := by
      rcases hnone with hnone | hnone <;> obtain ⟨s, rfl⟩ := List.head?_eq_some_iff.mp hnone <;>
        exact isCallable_of_skipBlanks rfl rfl (by decide) (by decide)
    rw [initializer_untyped_eq_none w hnone, hvalue]
    simp
  · rw [not_or] at hnone
    rw [initializer_untyped w hnone.1 hnone.2, ← valueRole_eq_function]
    simp [eq_comm]

/-! ## Where they part -/

/-- A value that begins with an open parenthesis, perhaps behind `async`, which
is not that of a parameter list with an arrow behind it. -/
def OnlyParenthesis (value : List Char) : Prop :=
  (operand value).head? = some '(' ∧ isListArrow (operand value) = false

/-- An arrow function that begins with its type parameters, perhaps behind
`async`. -/
def GenericArrow (value : List Char) : Prop :=
  (operand value).head? = some '<' ∧ isListArrow (operand value) = true

instance (value : List Char) : Decidable (OnlyParenthesis value) :=
  inferInstanceAs (Decidable (_ ∧ _))

instance (value : List Char) : Decidable (GenericArrow value) :=
  inferInstanceAs (Decidable (_ ∧ _))

/-- Without a bracket at the front of the operand there is one judgement. -/
theorem isCallableAssignment_of_head? (hparen : (operand value).head? ≠ some '(')
    (hangle : (operand value).head? ≠ some '<') :
    isCallableAssignment value = isCallable value := by
  rw [isCallable_eq, isCallableAssignment_eq]
  cases hoperand : operand value with
  | nil => rfl
  | cons c s =>
    rw [hoperand, List.head?_cons, ne_eq, Option.some.injEq] at hparen hangle
    rw [isListArrow_cons_of_ne hangle hparen, expectChar_cons_of_ne hparen, Option.isSome_none]

/-- **Only in CommonJS a function**: a value in parentheses. -/
theorem onlyParenthesis_iff (value : List Char) : OnlyParenthesis value ↔
    isCallableAssignment value = true ∧ isCallable value = false := by
  constructor
  · rintro ⟨hhead, hlist⟩
    obtain ⟨s, hs⟩ := List.head?_eq_some_iff.mp hhead
    obtain ⟨hcallable, hassigned⟩ := bracketed_operand (.inl rfl) hs
    exact ⟨hassigned.mpr rfl, hcallable.trans hlist⟩
  · rintro ⟨hassigned, hcallable⟩
    have hangle : (operand value).head? ≠ some '<' := by
      intro hangle
      obtain ⟨s, hs⟩ := List.head?_eq_some_iff.mp hangle
      exact absurd ((bracketed_operand (.inr rfl) hs).2.mp hassigned) (by decide)
    have hparen : (operand value).head? = some '(' := by
      by_contra hparen
      rw [isCallableAssignment_of_head? hparen hangle, hcallable] at hassigned
      cases hassigned
    obtain ⟨s, hs⟩ := List.head?_eq_some_iff.mp hparen
    exact ⟨hparen, (bracketed_operand (.inl rfl) hs).1.symm.trans hcallable⟩

/-- **Only in an ES module a function**: an arrow function with type
parameters. -/
theorem genericArrow_iff (value : List Char) : GenericArrow value ↔
    isCallable value = true ∧ isCallableAssignment value = false := by
  constructor
  · rintro ⟨hhead, hlist⟩
    obtain ⟨s, hs⟩ := List.head?_eq_some_iff.mp hhead
    obtain ⟨hcallable, hassigned⟩ := bracketed_operand (.inr rfl) hs
    refine ⟨hcallable.trans hlist, Bool.eq_false_iff.mpr fun h => ?_⟩
    exact absurd (hassigned.mp h) (by decide)
  · rintro ⟨hcallable, hassigned⟩
    have hparen : (operand value).head? ≠ some '(' := by
      intro hparen
      obtain ⟨s, hs⟩ := List.head?_eq_some_iff.mp hparen
      rw [(bracketed_operand (.inl rfl) hs).2.mpr rfl] at hassigned
      cases hassigned
    have hangle : (operand value).head? = some '<' := by
      by_contra hangle
      rw [isCallableAssignment_of_head? hparen hangle, hcallable] at hassigned
      cases hassigned
    obtain ⟨s, hs⟩ := List.head?_eq_some_iff.mp hangle
    exact ⟨hangle, (bracketed_operand (.inr rfl) hs).1.symm.trans hcallable⟩

/-- The two judgements agree on every other value. -/
theorem isCallableAssignment_eq_iff (value : List Char) :
    isCallableAssignment value = isCallable value ↔
      ¬ OnlyParenthesis value ∧ ¬ GenericArrow value := by
  rw [onlyParenthesis_iff, genericArrow_iff]
  cases isCallableAssignment value <;> cases isCallable value <;> decide

/-! ## At the front of a text -/

/-- A member of `exports`, which is reached through `module` or not, and the
text behind its assignment. -/
def exportsMember (viaModule : Bool) (n : Name) (g : Blanks) (value : List Char) : List Char :=
  (if viaModule then "module.".toList else []) ++
    ("exports.".toList ++ (n.chars ++ (g.chars ++ '=' :: value)))

theorem memberForm_exportsMember (viaModule : Bool) (n : Name) (g : Blanks) (value : List Char) :
    CommonJs.memberForm (exportsMember viaModule n g value) = some ((n.chars, value), value) := by
  have hform : CommonJs.memberForm (exportsMember viaModule n g value) =
      (name (n.chars ++ (g.chars ++ '=' :: value))).bind fun r =>
        (expectChar '=' (skipBlanks r.2)).bind fun t => some ((r.1, t), t) := by
    cases viaModule <;> rfl
  have hskip : skipBlanks (g.chars ++ '=' :: value) = '=' :: value := by
    rw [g.skipBlanks_append]
    rfl
  rw [hform, name_of_isName n.isName (g.endsName_append rfl), Option.bind_some, hskip]
  rfl

theorem mem_occurrences_exportsMember (viaModule : Bool) (n : Name) (g : Blanks)
    (value : List Char) : (0, n.chars, value) ∈
      occurrences CommonJs.memberForm (exportsMember viaModule n g value) := by
  have hform := memberForm_exportsMember viaModule n g value
  cases viaModule <;> exact mem_occurrences_front hform

/-- **A member at the front of a text is declared first.** -/
theorem declarationsOf_exportsMember (viaModule : Bool) (n : Name) (g : Blanks)
    (value : List Char) : ∃ later, declarationsOf (exportsMember viaModule n g value) =
      memberAt 0 n.chars value ++ later := by
  have hmembers := filter_members_of_mem (mem_occurrences_exportsMember viaModule n g value)
  have hexport : opensExport (exportsMember viaModule n g value) = false := by
    cases viaModule <;> rfl
  have hwhole : CommonJs.wholeForm (exportsMember viaModule n g value) = none := by
    cases viaModule <;> rfl
  have hmodel : CommonJs.modelForm (exportsMember viaModule n g value) = none := by
    cases viaModule <;> rfl
  have hesModule := EsModule.declaredAt_of_not_opens [] hexport
  rw [List.nil_append, List.length_nil] at hesModule
  obtain ⟨later, hlater⟩ := declarationsOf_eq_append hwhole hmodel
  rw [hesModule, hmembers, List.nil_append] at hlater
  exact ⟨later, hlater⟩

/-- **A member at the front of a source** whose name may be that of a constant
is recorded as a function if its value reads as one, and otherwise as a
constant. -/
theorem extract_exportsMember (viaModule : Bool) (n : Name) (g : Blanks)
    (hn : CommonJs.isConstantName n.chars = true) (heq : value.head? ≠ some '=')
    (hsource : blankComments source = exportsMember viaModule n g value) :
    (n.string ∈ (extract source).functions ↔ isCallableAssignment value = true) ∧
      (n.string ∈ (extract source).constants ↔ isCallableAssignment value = false) := by
  obtain ⟨later, hlater⟩ := declarationsOf_exportsMember viaModule n g value
  rw [← hsource, memberAt, if_neg heq, if_pos hn] at hlater
  cases hassigned : isCallableAssignment value with
  | true =>
    rw [hassigned, if_pos rfl] at hlater
    simpa [Name.string] using extract_of_first (by rfl) hlater
  | false =>
    rw [hassigned, if_neg Bool.false_ne_true] at hlater
    simpa [Name.string] using extract_of_first (by rfl) hlater

/-! ## One value in both kinds of module -/

/-- **The two kinds of module agree on a value** unless it stands in
parentheses or begins with type parameters: the first are functions only in
CommonJS, the second only in an ES module. So it is with what is declared,
wherever the value is assigned, and with what is recorded of a source that begins
with the assignment, under a name that a constant may have. -/
theorem isCallableAssignment_eq_isCallable (value : List Char) :
    (isCallableAssignment value = true ∧ isCallable value = false ↔ OnlyParenthesis value) ∧
    (isCallable value = true ∧ isCallableAssignment value = false ↔ GenericArrow value) ∧
    (∀ text p n w, (p, n, untyped w value) ∈ occurrences EsModule.constantForm text →
      ∀ text' p' n', (p', n', value) ∈ occurrences CommonJs.memberForm text' →
        ((⟨p, .function, String.ofList n⟩ ∈ EsModule.declarations text ↔
            ⟨p', .function, String.ofList n'⟩ ∈ CommonJs.members text') ↔
          ¬ OnlyParenthesis value ∧ ¬ GenericArrow value)) ∧
    ∀ source g g' n w, blankComments source = exportConst g g' n (untyped w value) →
      ∀ source' viaModule g'', blankComments source' = exportsMember viaModule n g'' value →
        value.head? ≠ some '=' → value.head? ≠ some '>' →
        CommonJs.isConstantName n.chars = true →
        ((n.string ∈ (extract source).functions ↔ n.string ∈ (extract source').functions) ↔
          ¬ OnlyParenthesis value ∧ ¬ GenericArrow value) ∧
        ((n.string ∈ (extract source).constants ↔ n.string ∈ (extract source').constants) ↔
          ¬ OnlyParenthesis value ∧ ¬ GenericArrow value) := by
  have hagree := isCallableAssignment_eq_iff value
  refine ⟨(onlyParenthesis_iff value).symm, (genericArrow_iff value).symm, ?_, ?_⟩
  · intro text p n w h text' p' n' h'
    rw [mem_declarations h, mem_members h', ← hagree]
    cases isCallable value <;> cases isCallableAssignment value <;> decide
  · intro source g g' n w hsource source' viaModule g'' hsource' heq hgt hn
    have hconst := extract_exportConst g g' n (w.endsName_append rfl) hsource
      (initializer_untyped w heq hgt)
    have hmember := extract_exportsMember viaModule n g'' hn heq hsource'
    rw [hconst.1, hconst.2, hmember.1, hmember.2, ← hagree]
    cases isCallable value <;> cases isCallableAssignment value <;> decide

/-- A limit is assigned a sum in parentheses, and the two sources are read
apart. -/
theorem isCallableAssignment_eq_isCallable_sum :
    OnlyParenthesis " (1 + 2);".toList ∧
    ¬ ("LIMIT" ∈ (extract "export const LIMIT = (1 + 2);".toList).functions ↔
      "LIMIT" ∈ (extract "exports.LIMIT = (1 + 2);".toList).functions) := by
  have hsum : OnlyParenthesis " (1 + 2);".toList := by decide
  have h := isCallableAssignment_eq_isCallable " (1 + 2);".toList
  let limit : Name := ⟨"LIMIT".toList, 'L', "IMIT".toList, rfl, rfl, List.all_eq_true.mp rfl⟩
  have hread := (h.2.2.2 "export const LIMIT = (1 + 2);".toList .space .space limit
    Gap.space.toBlanks (by decide) "exports.LIMIT = (1 + 2);".toList false Gap.space.toBlanks
    (by decide) (by decide) (by decide) (by decide)).1
  exact ⟨hsum, fun hsame => (hread.mp hsame).1 hsum⟩

/-- A sum in parentheses is a function of a CommonJS module and a constant of an
ES module, and a function with type parameters is one of an ES module only. -/
theorem isCallableAssignment_misread :
    (isCallableAssignment " (1 + 2);".toList = true ∧ isCallable " (1 + 2);".toList = false ∧
      "LIMIT" ∈ (extract "exports.LIMIT = (1 + 2);".toList).functions ∧
      "LIMIT" ∈ (extract "export const LIMIT = (1 + 2);".toList).constants) ∧
    (isCallableAssignment " <T>(xs: T[]) => xs[0];".toList = false ∧
      isCallable " <T>(xs: T[]) => xs[0];".toList = true ∧
      CommonJs.members "exports.first = <T>(xs: T[]) => xs[0];".toList = [] ∧
      "first" ∈ (extract "export const first = <T>(xs: T[]) => xs[0];".toList).functions) := by
  let limit : Name := ⟨"LIMIT".toList, 'L', "IMIT".toList, rfl, rfl, List.all_eq_true.mp rfl⟩
  let first : Name := ⟨"first".toList, 'f', "irst".toList, rfl, rfl, List.all_eq_true.mp rfl⟩
  have hmember : ("LIMIT" ∈ (extract "exports.LIMIT = (1 + 2);".toList).functions ↔
      isCallableAssignment " (1 + 2);".toList = true) ∧ _ :=
    extract_exportsMember false limit Gap.space.toBlanks (by decide) (by decide) (by decide)
  have hconst : _ ∧ ("LIMIT" ∈ (extract "export const LIMIT = (1 + 2);".toList).constants ↔
      isCallable " (1 + 2);".toList = false) :=
    extract_exportConst .space .space limit (s := " = (1 + 2);".toList) (by decide) (by decide)
      (by decide)
  have hgeneric : ("first" ∈
      (extract "export const first = <T>(xs: T[]) => xs[0];".toList).functions ↔
      isCallable " <T>(xs: T[]) => xs[0];".toList = true) ∧ _ :=
    extract_exportConst .space .space first (s := " = <T>(xs: T[]) => xs[0];".toList) (by decide)
      (by decide) (by decide)
  exact ⟨⟨by decide, by decide, hmember.1.mpr (by decide), hconst.2.mpr (by decide)⟩,
    by decide, by decide, by decide, hgeneric.1.mpr (by decide)⟩

end Source

end ExportAtlas
