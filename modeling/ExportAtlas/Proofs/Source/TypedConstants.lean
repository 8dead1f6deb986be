import ExportAtlas.Proofs.Source.Constants
/-!
# Type annotations

A type annotation bears neither on what a constant is initialized with nor on
what it is declared as (`initializer_annotated`). The reader of an annotation
counts brackets as it goes; what it is right for is said without it, by the
depth of brackets at each place of the annotation (`IsTypeText`), and the
reader's count is that depth (`annotated_append`).
-/

namespace ExportAtlas

namespace Source

open EsModule (isOpening isClosing annotated initializer)

variable {c : Char} {d : Nat} {t rest rhs : List Char}

/-! ## Balanced annotations -/

/-- What an annotation is made of: arrows, each of two characters, and single
characters. -/
inductive TypeToken where
  | arrow
  | char (c : Char)
  deriving DecidableEq

/-- The tokens of a text. -/
def typeTokens : List Char → List TypeToken
  | '=' :: '>' :: s => .arrow :: typeTokens s
  | c :: s => .char c :: typeTokens s
  | [] => []

namespace TypeToken

/-- An opening bracket counts up and a closing one of any kind counts down. -/
def weight : TypeToken → Int
  | arrow => 0
  | char c => if isOpening c then 1 else if isClosing c then -1 else 0

/-- Outside brackets neither the end of a declaration nor an assignment may
stand. -/
def mayStandOutside : TypeToken → Bool
  | arrow => true
  | char c => c != ';' && c != '\n' && c != '='

end TypeToken

/-- How many brackets are opened and not closed. -/
def bracketDepth : List TypeToken → Int
  | [] => 0
  | t :: ts => t.weight + bracketDepth ts

/-- Tokens that stand inside `d` brackets close them all, and whatever they
open; none is closed that is not open, and outside brackets nothing stands that
may not. -/
structure Closes (d : Nat) (ts : List TypeToken) : Prop where
  balanced : d + bracketDepth ts = 0
  nonneg : ∀ i, 0 ≤ d + bracketDepth (ts.take i)
  outside : ∀ i t, ts[i]? = some t → d + bracketDepth (ts.take i) = 0 → t.mayStandOutside = true

/-- A text that may stand between the colon and the assignment of a
constant. -/
def IsTypeText (t : List Char) : Prop := Closes 0 (typeTokens t)

instance (d : Nat) (ts : List TypeToken) : Decidable (Closes d ts) :=
  -- behind the last token the depth is that of all of them
  decidable_of_iff (d + bracketDepth ts = 0 ∧
      (∀ i < ts.length, 0 ≤ d + bracketDepth (ts.take i)) ∧
      ∀ i < ts.length, d + bracketDepth (ts.take i) = 0 →
        ts[i]?.all TypeToken.mayStandOutside) <| by
    constructor
    · rintro ⟨hbalanced, hnonneg, houtside⟩
      refine ⟨hbalanced, fun i => ?_, fun i t ht hdepth => ?_⟩
      · rcases Nat.lt_or_ge i ts.length with hi | hi
        · exact hnonneg i hi
        · rw [List.take_of_length_le hi, hbalanced]
      · have hi := (List.getElem?_eq_some_iff.mp ht).1
        simpa [ht] using houtside i hi hdepth
    · intro h
      refine ⟨h.balanced, fun i _ => h.nonneg i, fun i _ hdepth => ?_⟩
      rw [Option.all_eq_true]
      exact fun t ht => h.outside i t ht hdepth

instance (t : List Char) : Decidable (IsTypeText t) := inferInstanceAs (Decidable (Closes _ _))

/-! ## One token -/

/-- **One token passed**: behind it stands what closes the brackets that are
open then, and outside brackets it was one that may stand there. -/
theorem Closes.tail {tok : TypeToken} {ts : List TypeToken} (h : Closes d (tok :: ts)) :
    ∃ d' : Nat, (d' : Int) = d + tok.weight ∧ Closes d' ts ∧
      (d = 0 → tok.mayStandOutside = true) := by
  have hone := h.nonneg 1
  rw [List.take_succ_cons, List.take_zero, bracketDepth] at hone
  have hnil : bracketDepth [] = 0 := rfl
  obtain ⟨d', hd'⟩ := Int.eq_ofNat_of_zero_le (a := d + tok.weight) (by omega)
  refine ⟨d', hd'.symm, ⟨?_, fun i => ?_, fun i t ht hdepth => ?_⟩, fun hd => ?_⟩
  · have := h.balanced
    rw [bracketDepth] at this
    omega
  · have := h.nonneg (i + 1)
    rw [List.take_succ_cons, bracketDepth] at this
    omega
  · refine h.outside (i + 1) t (by rwa [List.getElem?_cons_succ]) ?_
    rw [List.take_succ_cons, bracketDepth]
    omega
  · refine h.outside 0 tok (by rw [List.getElem?_cons_zero]) ?_
    rw [List.take_zero, hnil, hd]
    rfl

/-- A character that is no arrow is read by its weight. -/
theorem annotated_of_weight {d' : Nat} {s : List Char} (harrow : ¬ (c = '=' ∧ s.head? = some '>'))
    (hweight : (d' : Int) = d + (TypeToken.char c).weight)
    (houtside : d = 0 → (TypeToken.char c).mayStandOutside = true) :
    annotated d (c :: s) = annotated d' s := by
  rw [annotated_cons d harrow]
  rw [TypeToken.weight] at hweight
  split
  · rename_i hopen
    rw [if_pos hopen] at hweight
    rw [show d' = d + 1 by omega]
  · rename_i hopen
    rw [if_neg hopen] at hweight
    split
    · rename_i hclose
      rw [if_pos hclose] at hweight
      rw [show d' = d - 1 by omega]
    · rename_i hclose
      rw [if_neg hclose] at hweight
      have hchar : d = 0 → c ≠ ';' ∧ c ≠ '\n' ∧ c ≠ '=' := by
        simpa [TypeToken.mayStandOutside, and_assoc] using houtside
      rw [if_neg fun h => (hchar h.2).2.2 h.1,
        if_neg fun h => h.1.elim (hchar h.2).1 (hchar h.2).2.1, show d' = d by omega]

/-! ## A whole annotation -/

/-- **The reader passes over what closes the brackets it has counted**, and is
outside brackets then. An arrow is not taken apart, since what follows does not
begin with its second character. -/
theorem annotated_append (h : Closes d (typeTokens t)) (hrest : rest.head? ≠ some '>') :
    annotated d (t ++ rest) = annotated 0 rest := by
  induction t using typeTokens.induct generalizing d with
  | case1 s ih =>
    rw [typeTokens] at h
    obtain ⟨d', hd', hclose, -⟩ := h.tail
    rw [TypeToken.weight] at hd'
    rw [List.cons_append, List.cons_append, annotated, ← ih hclose, show d' = d by omega]
  | case2 c s hc ih =>
    rw [typeTokens] at h
    · obtain ⟨d', hd', hclose, houtside⟩ := h.tail
      have harrow : ¬ (c = '=' ∧ (s ++ rest).head? = some '>') := by
        rintro ⟨rfl, hhead⟩
        cases s with
        | nil => exact hrest hhead
        | cons e s =>
          rw [List.cons_append, List.head?_cons] at hhead
          exact hc s rfl (by rw [Option.some.inj hhead])
      rw [List.cons_append, annotated_of_weight harrow hd' houtside, ih hclose]
    · exact hc
  | case3 =>
    have hzero : d = 0 := by
      have := h.balanced
      rw [show bracketDepth (typeTokens []) = 0 from rfl] at this
      omega
    rw [List.nil_append, hzero]

/-- What follows an annotation: an assignment is read, and where the
declaration ends there is nothing to read. -/
theorem annotated_assignment (h : rhs.head? ≠ some '>') : annotated 0 ('=' :: rhs) = some rhs := by
  rw [annotated_cons 0 fun harrow => h harrow.2]
  rfl

/-- A declaration ends with a semicolon, with its line or with its text. -/
def endsDeclaration (rest : List Char) : Bool := rest.head?.all fun c => c == ';' || c == '\n'

theorem annotated_end (h : endsDeclaration rest = true) : annotated 0 rest = none := by
  cases rest with
  | nil => rfl
  | cons c rest =>
    rw [endsDeclaration, List.head?_cons, Option.all_some, Bool.or_eq_true, beq_iff_eq,
      beq_iff_eq] at h
    have hassign : ¬ (c = '=' ∧ rest.head? = some '>') := by
      rintro ⟨rfl, -⟩
      rcases h with h | h <;> cases h
    rw [annotated_cons 0 hassign]
    rcases h with rfl | rfl <;> rfl

/-! ## Constants with and without an annotation -/

section Initializers

variable (w : Blanks)

/-- A type annotation between a name and an assignment. -/
def typed (w : Blanks) (t rest : List Char) : List Char := w.chars ++ ':' :: (t ++ rest)

/-- An assignment right behind a name. -/
def untyped (w : Blanks) (rhs : List Char) : List Char := w.chars ++ '=' :: rhs

theorem initializer_typed (ht : IsTypeText t) (hrest : rest.head? ≠ some '>') :
    initializer (typed w t rest) = annotated 0 rest := by
  have hread : ∀ s, initializer (':' :: s) = annotated 0 s := fun _ => rfl
  have hskip : initializer (typed w t rest) = initializer (':' :: (t ++ rest)) := by
    rw [initializer, typed, w.skipBlanks_append]
    rfl
  rw [hskip, hread, annotated_append ht hrest]

theorem skipBlanks_untyped (rhs : List Char) : skipBlanks (untyped w rhs) = '=' :: rhs := by
  rw [untyped, w.skipBlanks_append]
  rfl

theorem initializer_untyped (heq : rhs.head? ≠ some '=') (hgt : rhs.head? ≠ some '>') :
    initializer (untyped w rhs) = some rhs := by
  rw [initializer, skipBlanks_untyped]
  cases rhs with
  | nil => rfl
  | cons c rhs =>
    have hc : c ≠ '=' ∧ c ≠ '>' :=
      ⟨fun h => heq (by rw [h]; rfl), fun h => hgt (by rw [h]; rfl)⟩
    simp [hc.1, hc.2]

/-- A comparison and an arrow right behind a name assign nothing. -/
theorem initializer_untyped_eq_none (h : rhs.head? = some '=' ∨ rhs.head? = some '>') :
    initializer (untyped w rhs) = none := by
  rw [initializer, skipBlanks_untyped]
  rcases h with h | h <;> obtain ⟨s, rfl⟩ := List.head?_eq_some_iff.mp h <;> rfl

end Initializers

/-- **A type annotation does not change what a constant is.** Behind it, as
right behind the name, the initializer is what is assigned; and wherever in a
text the constant is found, it is declared as what the initializer makes of it,
with the annotation or without. A constant that has an annotation and no
initializer is not declared. -/
theorem initializer_annotated (w : Blanks) (ht : IsTypeText t) :
    (∀ rhs : List Char, rhs.head? ≠ some '=' → rhs.head? ≠ some '>' →
      initializer (typed w t ('=' :: rhs)) = some rhs ∧
      initializer (untyped w rhs) = some rhs ∧
      (∀ g g' n, EsModule.declaredAt 0 (exportConst g g' n (typed w t ('=' :: rhs))) =
          [⟨0, valueRole rhs, n.string⟩] ∧
        EsModule.declaredAt 0 (exportConst g g' n (untyped w rhs)) =
          [⟨0, valueRole rhs, n.string⟩]) ∧
      ∀ text p n, ((p, n, typed w t ('=' :: rhs)) ∈ occurrences EsModule.constantForm text ∨
          (p, n, untyped w rhs) ∈ occurrences EsModule.constantForm text) →
        EsModule.declaredAt p text = [⟨p, valueRole rhs, String.ofList n⟩]) ∧
    ∀ rest : List Char, endsDeclaration rest = true →
      initializer (typed w t rest) = none ∧
      (∀ g g' n, EsModule.declaredAt 0 (exportConst g g' n (typed w t rest)) = []) ∧
      ∀ text p n, (p, n, typed w t rest) ∈ occurrences EsModule.constantForm text →
        EsModule.declaredAt p text = [] := by
  have hends : ∀ s, endsName (typed w t s) = true := fun _ => w.endsName_append rfl
  constructor
  · intro rhs heq hgt
    have htyped : initializer (typed w t ('=' :: rhs)) = some rhs := by
      rw [initializer_typed w ht (by simp), annotated_assignment hgt]
    have huntyped := initializer_untyped w heq hgt
    -- with the same initializer the same is declared
    have hdeclared : ∀ text p n rest, (p, n, rest) ∈ occurrences EsModule.constantForm text →
        initializer rest = some rhs →
        EsModule.declaredAt p text = [⟨p, valueRole rhs, String.ofList n⟩] := by
      intro text p n rest hmem hrest
      rw [declaredAt_constant hmem, constantAt, hrest]
      rfl
    refine ⟨htyped, huntyped, fun g g' n => ⟨?_, ?_⟩, fun text p n hmem => ?_⟩
    · exact hdeclared _ _ _ _ (mem_occurrences_exportConst g g' n (hends _)) htyped
    · exact hdeclared _ _ _ _
        (mem_occurrences_exportConst g g' n (w.endsName_append rfl)) huntyped
    · rcases hmem with hmem | hmem
      · exact hdeclared text p n _ hmem htyped
      · exact hdeclared text p n _ hmem huntyped
  · intro rest hrest
    have hgt : rest.head? ≠ some '>' := by
      intro h
      rw [endsDeclaration, h] at hrest
      cases hrest
    have hnone : initializer (typed w t rest) = none := by
      rw [initializer_typed w ht hgt, annotated_end hrest]
    have hdeclared : ∀ text p n, (p, n, typed w t rest) ∈ occurrences EsModule.constantForm text →
        EsModule.declaredAt p text = [] := by
      intro text p n hmem
      rw [declaredAt_constant hmem, constantAt, hnone]
      rfl
    exact ⟨hnone, fun g g' n => hdeclared _ _ _ (mem_occurrences_exportConst g g' n (hends _)),
      hdeclared⟩

/-- A table of listeners: in the annotation stand brackets of every shape, an
arrow, and a semicolon between braces. -/
theorem initializer_annotated_listener :
    let t := " Map<Id, (e: \x7b a: A; b: B[] \x7d) => void> ".toList
    IsTypeText t ∧
    EsModule.declaredAt 0 ("export const on:".toList ++ (t ++ "= (e) => e;".toList)) =
      [⟨0, .function, "on"⟩] ∧
    EsModule.declaredAt 0 ("export const on:".toList ++ (t ++ ";".toList)) = [] := by
  intro t
  have ht : IsTypeText t := by decide
  have h := initializer_annotated (t := t) ⟨[], nofun⟩ ht
  let on : Name := ⟨"on".toList, 'o', ['n'], rfl, rfl, List.all_eq_true.mp rfl⟩
  exact ⟨ht, ((h.1 " (e) => e;".toList (by decide) (by decide)).2.2.1 .space .space on).1,
    (h.2 ";".toList (by decide)).2.1 .space .space on⟩

end Source

end ExportAtlas
