import Mathlib.Data.List.Basic
import ExportAtlas.Ignore.NamePattern
import ExportAtlas.Proofs.Ignore.Row
/-!
# The names of a pattern

A pattern accepts the names that can be shared out among its parts
(`Fits`, `accepts_iff`), each part taking its stretch in its own way
(`Part.Takes`).

A pattern is itself a text, made of what its parts are written with
(`spelledFrom_of_partsFrom`). A part that is no set takes the characters that it
is written with, so a pattern without sets has its own form (`fits_of_spelled`).
A set takes one character and is written with more; so a pattern with a set has
its own form only if a run or folders make up for it (`not_fits_of_isSingle`).
-/

namespace ExportAtlas

namespace NamePattern

variable {part : Part} {parts : List Part} {s taken rest : List Char} {place : Place}
  {name : String}

/-! ## Names shared out among parts -/

/-- A part takes a stretch of a name, in front of the rest of it. Folders are
taken with the slash behind them, or to the end of the name. -/
def Part.Takes : Part → (taken rest : List Char) → Prop
  | literal c, taken, _ => taken = [c]
  | anyChar, taken, _ => ∃ c, taken = [c]
  | anyRun, _, _ => True
  | anyFolders, taken, rest => taken = [] ∨ taken.getLast? = some '/' ∨ rest = []
  | set negated members, taken, _ =>
    ∃ c, taken = [c] ∧ ((∃ m ∈ members, m.holds c = true) ↔ negated = false)

/-- A text has the form of parts: it can be shared out among them, in their
order. -/
inductive Fits : List Part → List Char → Prop where
  | nil : Fits [] []
  | cons {part : Part} {parts : List Part} {taken rest : List Char} (h : part.Takes taken rest)
      (hrest : Fits parts rest) : Fits (part :: parts) (taken ++ rest)

theorem fits_nil_iff : Fits [] s ↔ s = [] :=
  ⟨fun h => by cases h; rfl, fun h => h ▸ .nil⟩

theorem fits_cons_iff : Fits (part :: parts) s ↔
    ∃ taken rest, s = taken ++ rest ∧ part.Takes taken rest ∧ Fits parts rest := by
  constructor
  · rintro (_ | ⟨h, hrest⟩)
    exact ⟨_, _, rfl, h, hrest⟩
  · rintro ⟨taken, rest, rfl, h, hrest⟩
    exact .cons h hrest

/-! ## Comparing by rows -/

section Comparing

variable {text : List Char} {r : Row} {P : List Char → Prop}

/-- A part that takes one character is compared by that character. -/
theorem tells_one {p : Char → Bool} (h : Row.Tells P text r)
    (htakes : ∀ taken rest, part.Takes taken rest ↔ ∃ c, taken = [c] ∧ p c = true) :
    Row.Tells (fun s => ∃ taken rest, s = taken ++ rest ∧ part.Takes taken rest ∧ P rest) text
      (Row.one p text r) := by
  refine h.one.congr fun s => ?_
  simp only [htakes]
  constructor
  · rintro ⟨c, rest, rfl, hc, hrest⟩
    exact ⟨[c], rest, rfl, ⟨c, rfl, hc⟩, hrest⟩
  · rintro ⟨_, rest, rfl, ⟨c, rfl, hc⟩, hrest⟩
    exact ⟨c, rest, rfl, hc, hrest⟩

/-- Folders end at once, behind a slash, or with the text. -/
theorem tells_folders (h : Row.Tells P text r) :
    Row.Tells (fun s => ∃ taken rest, s = taken ++ rest ∧ Part.anyFolders.Takes taken rest ∧ P rest)
      text (Part.anyFolders.row text r) := by
  refine (h.either ((h.past (p := (· == '/'))).either h.toEnd)).congr fun s => ?_
  simp only [beq_iff_eq]
  constructor
  · rintro (hs | ⟨w, _, rest, rfl, rfl, hrest⟩ | hnil)
    · exact ⟨[], s, rfl, .inl rfl, hs⟩
    · exact ⟨w ++ ['/'], rest, by simp, .inr (.inl (by simp)), hrest⟩
    · exact ⟨s, [], by simp, .inr (.inr rfl), hnil⟩
  · rintro ⟨taken, rest, rfl, rfl | hslash | rfl, hrest⟩
    · exact .inl hrest
    · obtain ⟨w, rfl⟩ := List.getLast?_eq_some_iff.mp hslash
      exact .inr (.inl ⟨w, '/', rest, by simp, rfl, hrest⟩)
    · exact .inr (.inr hrest)

/-- **A part makes the row of what it takes**, in front of what the row behind
it tells. -/
theorem tells_row (h : Row.Tells P text r) (part : Part) :
    Row.Tells (fun s => ∃ taken rest, s = taken ++ rest ∧ part.Takes taken rest ∧ P rest) text
      (part.row text r) := by
  cases part with
  | literal c => exact tells_one h fun taken rest => by simp [Part.Takes]
  | anyChar => exact tells_one h fun taken rest => by simp [Part.Takes]
  | anyRun =>
    refine (h.run (p := fun _ => true)).congr fun s => ?_
    simp [Part.Takes]
  | anyFolders => exact tells_folders h
  | set negated members =>
    refine tells_one h fun taken rest => exists_congr fun c => and_congr_right fun _ => ?_
    rw [← List.any_eq_true, bne_iff_ne]
    cases negated <;> simp

/-- The rows of a pattern tell which ends of a name have its form. -/
theorem tells_parts (parts : List Part) (text : List Char) :
    Row.Tells (Fits parts) text (parts.foldr (fun part r => part.row text r) (Row.atEnd text)) := by
  induction parts with
  | nil => exact (Row.Tells.atEnd text).congr fun s => fits_nil_iff.symm
  | cons part parts ih => exact (tells_row ih part).congr fun s => fits_cons_iff.symm

end Comparing

/-- **A pattern accepts the names of its form.** -/
theorem accepts_iff {p : NamePattern} : p.accepts name = true ↔ Fits p.parts name.toList :=
  (tells_parts p.parts name.toList).fits

/-! ## How parts are written -/

/-- A part is written with some characters, in front of the rest of a
pattern. -/
inductive Part.Spells : Part → (spelled rest : List Char) → Prop where
  | literal {c : Char} {rest : List Char} (h : c ≠ '[') : Spells (.literal c) [c] rest
  | anyChar {rest : List Char} : Spells .anyChar ['?'] rest
  | anyRun {rest : List Char} : Spells .anyRun ['*'] rest
  | anyFolders {rest : List Char} : Spells .anyFolders ['*', '*', '/'] rest
  /-- Folders that nothing follows. -/
  | lastFolders : Spells .anyFolders ['*', '*'] []
  | set {run rest : List Char} (h : run ≠ []) :
      Spells (.set false (members run)) ('[' :: (run ++ [']'])) rest
  | negatedSet {run rest : List Char} (h : run ≠ []) :
      Spells (.set true (members run)) ('[' :: '!' :: (run ++ [']'])) rest

/-- A text is how parts are written, one behind the other. -/
inductive Spelled : List Part → List Char → Prop where
  | nil : Spelled [] []
  | cons {part : Part} {parts : List Part} {spelled rest : List Char}
      (h : part.Spells spelled rest) (hrest : Spelled parts rest) :
      Spelled (part :: parts) (spelled ++ rest)

/-- What the reader of a pattern finds, from the place on where it stands: in a
set, the rest of that set first. -/
def SpelledFrom : Place → List Part → List Char → Prop
  | .between _, parts, s => Spelled parts s
  | .inSet negated run, parts, s => ∃ more rest parts', s = more ++ ']' :: rest ∧
      run.reverse ++ more ≠ [] ∧
      parts = .set negated (members (run.reverse ++ more)) :: parts' ∧ Spelled parts' rest

/-- **What is read as parts is how they are written.** -/
theorem spelledFrom_of_partsFrom (h : partsFrom place s = some parts) :
    SpelledFrom place parts s := by
  fun_induction partsFrom place s generalizing parts with
  | case1 =>
    obtain rfl := Option.some.inj h
    exact .nil
  | case2 atStart rest ih =>
    obtain ⟨parts, hparts, rfl⟩ := Option.map_eq_some_iff.mp h
    exact .cons .anyChar (ih hparts)
  | case3 | case6 | case11 => cases h
  | case4 =>
    obtain rfl := Option.some.inj h
    exact .cons .lastFolders .nil
  | case5 atStart _ rest ih =>
    obtain ⟨parts, hparts, rfl⟩ := Option.map_eq_some_iff.mp h
    exact .cons .anyFolders (ih hparts)
  | case7 atStart rest _ ih =>
    obtain ⟨parts, hparts, rfl⟩ := Option.map_eq_some_iff.mp h
    exact .cons .anyRun (ih hparts)
  | case8 atStart rest ih =>
    obtain ⟨run, rest, parts, rfl, hrun, rfl, hrest⟩ := ih h
    have hset := Spelled.cons (.negatedSet hrun) hrest
    rwa [List.cons_append, List.cons_append, List.append_assoc] at hset
  | case9 atStart rest _ ih =>
    obtain ⟨run, rest, parts, rfl, hrun, rfl, hrest⟩ := ih h
    have hset := Spelled.cons (.set hrun) hrest
    rwa [List.cons_append, List.append_assoc] at hset
  | case10 atStart c rest _ _ _ _ hc ih =>
    obtain ⟨parts, hparts, rfl⟩ := Option.map_eq_some_iff.mp h
    exact .cons (.literal hc) (ih hparts)
  | case12 negated run c rest hclose ih =>
    -- the bracket that closes the set
    obtain ⟨parts, hparts, rfl⟩ := Option.map_eq_some_iff.mp h
    obtain ⟨rfl, hrun⟩ := hclose
    refine ⟨[], rest, parts, rfl, by simpa using hrun, by rw [List.append_nil], ih hparts⟩
  | case13 negated run c rest _ ih =>
    obtain ⟨more, rest, parts, rfl, hrun, rfl, hrest⟩ := ih h
    rw [List.reverse_cons, List.append_assoc, List.singleton_append] at hrun ⊢
    exact ⟨c :: more, rest, parts, rfl, hrun, rfl, hrest⟩

theorem spelled_of_parse? {p : NamePattern} (h : parse? name = some p) :
    Spelled p.parts name.toList := by
  obtain ⟨parts, hparts, rfl⟩ := Option.map_eq_some_iff.mp h
  exact spelledFrom_of_partsFrom hparts

/-! ## Patterns against themselves -/

/-- A part that is no set takes the characters that it is written with. -/
theorem takes_of_spells (h : part.Spells taken rest) (hset : '[' ∉ taken) :
    part.Takes taken rest := by
  cases h with
  | literal => rfl
  | anyChar => exact ⟨_, rfl⟩
  | anyRun => trivial
  | anyFolders => exact .inr (.inl rfl)
  | lastFolders => exact .inr (.inr rfl)
  | set | negatedSet => exact absurd (List.mem_cons_self ..) hset

/-- **A pattern without sets has its own form.** -/
theorem fits_of_spelled (h : Spelled parts s) (hset : '[' ∉ s) : Fits parts s := by
  induction h with
  | nil => exact .nil
  | cons h _ ih =>
    rw [List.mem_append, not_or] at hset
    exact .cons (takes_of_spells h hset.1) (ih hset.2)

/-- A part is written with a character at least, and a set with more. -/
theorem length_of_spells (h : part.Spells taken rest) :
    0 < taken.length ∧ ('[' ∈ taken → 1 < taken.length) := by
  cases h with
  | literal hc => simp [Ne.symm hc]
  | anyChar | anyRun | anyFolders | lastFolders => simp
  | set | negatedSet => simp

/-- A pattern has no more parts than characters, and less where it has a set. -/
theorem length_of_spelled (h : Spelled parts s) :
    parts.length ≤ s.length ∧ ('[' ∈ s → parts.length < s.length) := by
  induction h with
  | nil => simp
  | cons h _ ih =>
    obtain ⟨hpos, hset⟩ := length_of_spells h
    rw [List.length_cons, List.length_append, List.mem_append]
    refine ⟨by omega, ?_⟩
    rintro (hmem | hmem)
    · have := hset hmem
      omega
    · have := ih.2 hmem
      omega

/-- A part takes one character, whatever it is. -/
def Part.isSingle : Part → Bool
  | literal _ | anyChar | set _ _ => true
  | anyRun | anyFolders => false

theorem length_of_takes (h : part.Takes taken rest) (hsingle : part.isSingle = true) :
    taken.length = 1 := by
  cases part with
  | literal c => exact congrArg List.length h
  | anyChar =>
    obtain ⟨c, rfl⟩ := h
    rfl
  | set negated members =>
    obtain ⟨c, rfl, -⟩ := h
    rfl
  | anyRun | anyFolders => cases hsingle

/-- Parts that take one character each take as many as they are. -/
theorem length_of_fits (h : Fits parts s) (hsingle : ∀ part ∈ parts, part.isSingle = true) :
    s.length = parts.length := by
  induction h with
  | nil => rfl
  | cons h _ ih =>
    obtain ⟨hpart, hparts⟩ := List.forall_mem_cons.mp hsingle
    rw [List.length_append, length_of_takes h hpart, ih hparts, List.length_cons, Nat.add_comm]

/-- **A pattern with a set never has its own form** where every part takes one
character. -/
theorem not_fits_of_isSingle (h : Spelled parts s) (hset : '[' ∈ s)
    (hsingle : ∀ part ∈ parts, part.isSingle = true) : ¬ Fits parts s := by
  intro hfits
  have hlt := (length_of_spelled h).2 hset
  have heq := length_of_fits hfits hsingle
  omega

end NamePattern

end ExportAtlas
