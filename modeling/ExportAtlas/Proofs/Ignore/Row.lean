import ExportAtlas.Ignore.Row
/-!
# What rows tell

A row tells which ends of a text have a property (`Row.Tells`), and its first
answer is the one for the whole text (`Row.Tells.fits`). Each way to make a row
of another one then has a meaning of its own: what it tells is said by the
stretch of text that it passes over, and by what the other row tells of the
rest.
-/

namespace ExportAtlas

namespace Row

variable {α : Type} {P Q : List α → Prop} {p : α → Bool} {text : List α} {b : Bool} {r r' : Row}

/-- A row tells which ends of a text have a property, the longest end first. -/
inductive Tells (P : List α → Prop) : List α → Row → Prop where
  | nil {now : Bool} (h : now = true ↔ P []) : Tells P [] [now]
  | cons {x : α} {text : List α} {now : Bool} {later : Row} (h : now = true ↔ P (x :: text))
      (hlater : Tells P text later) : Tells P (x :: text) (now :: later)

namespace Tells

/-- The first answer is the one for the whole text. -/
theorem fits (h : Tells P text r) : r.fits = true ↔ P text := by
  cases h with
  | nil h => exact h
  | cons h _ => exact h

/-- A row tells one property as well as another that the same ends have. -/
theorem congr (h : Tells P text r) (hPQ : ∀ s, P s ↔ Q s) : Tells Q text r := by
  induction h with
  | nil h => exact .nil (h.trans (hPQ _))
  | cons h _ ih => exact .cons (h.trans (hPQ _)) ih

theorem atEnd (text : List α) : Tells (· = []) text (atEnd text) := by
  induction text with
  | nil => exact .nil (by simp)
  | cons x text ih => exact .cons (by simp) ih

/-- Two rows side by side tell that an end fits one way or the other. -/
theorem either (h : Tells P text r) (h' : Tells Q text r') :
    Tells (fun s => P s ∨ Q s) text (r.either r') := by
  induction h generalizing r' with
  | nil h =>
    cases h' with
    | nil h' => exact .nil (by rw [Bool.or_eq_true, h, h'])
  | cons h _ ih =>
    cases h' with
    | cons h' hlater' => exact .cons (by rw [Bool.or_eq_true, h, h']) (ih hlater')

/-- One element, and then what the row tells. -/
theorem one (h : Tells P text r) :
    Tells (fun s => ∃ x rest, s = x :: rest ∧ p x = true ∧ P rest) text (one p text r) := by
  induction h with
  | nil => exact .nil (by simp)
  | cons _ hlater ih =>
    refine .cons ?_ ih
    rw [Bool.and_eq_true, hlater.fits]
    constructor
    · rintro ⟨hx, hrest⟩
      exact ⟨_, _, rfl, hx, hrest⟩
    · rintro ⟨y, rest, hs, hy, hrest⟩
      obtain ⟨rfl, rfl⟩ := List.cons.inj hs
      exact ⟨hy, hrest⟩

/-- A stretch of elements, and then what the row tells. -/
theorem run (h : Tells P text r) :
    Tells (fun s => ∃ w rest, s = w ++ rest ∧ (∀ x ∈ w, p x = true) ∧ P rest) text
      (run p text r) := by
  induction h with
  | nil h =>
    refine .nil (h.trans ⟨fun hnil => ⟨[], [], rfl, nofun, hnil⟩, ?_⟩)
    rintro ⟨w, rest, hs, -, hrest⟩
    obtain ⟨-, rfl⟩ := List.nil_eq_append_iff.mp hs
    exact hrest
  | cons h _ ih =>
    refine .cons ?_ ih
    rw [Bool.or_eq_true, Bool.and_eq_true, h, ih.fits]
    constructor
    · rintro (hnow | ⟨hx, w, rest, rfl, hw, hrest⟩)
      · exact ⟨[], _, rfl, nofun, hnow⟩
      · exact ⟨_ :: w, rest, rfl, List.forall_mem_cons.mpr ⟨hx, hw⟩, hrest⟩
    · rintro ⟨w, rest, hs, hw, hrest⟩
      cases w with
      | nil =>
        obtain rfl : _ = rest := hs
        exact .inl hrest
      | cons y w =>
        obtain ⟨rfl, rfl⟩ := List.cons.inj hs
        obtain ⟨hy, hw⟩ := List.forall_mem_cons.mp hw
        exact .inr ⟨hy, w, rest, rfl, hw, hrest⟩

/-- A stretch up to an element with a property, and then what the row tells. -/
theorem past (h : Tells P text r) :
    Tells (fun s => ∃ w x rest, s = w ++ x :: rest ∧ p x = true ∧ P rest) text
      (past p text r) := by
  induction h with
  | nil => exact .nil (by simp)
  | cons _ hlater ih =>
    refine .cons ?_ ih
    rw [Bool.or_eq_true, Bool.and_eq_true, hlater.fits, ih.fits]
    constructor
    · rintro (⟨hx, hrest⟩ | ⟨w, y, rest, rfl, hy, hrest⟩)
      · exact ⟨[], _, _, rfl, hx, hrest⟩
      · exact ⟨_ :: w, y, rest, rfl, hy, hrest⟩
    · rintro ⟨w, y, rest, hs, hy, hrest⟩
      cases w with
      | nil =>
        obtain ⟨rfl, rfl⟩ := List.cons.inj hs
        exact .inl ⟨hy, hrest⟩
      | cons z w =>
        obtain ⟨-, rfl⟩ := List.cons.inj hs
        exact .inr ⟨w, y, rest, rfl, hy, hrest⟩

/-- The last answer is the one for the empty end. -/
theorem getLastD (h : Tells P text r) : r.getLastD false = true ↔ P [] := by
  induction h with
  | nil h => exact h
  | cons _ hlater ih =>
    rw [List.getLastD_cons]
    cases hlater <;> exact ih

/-- One answer for every end. -/
theorem const {A : Prop} (h : Tells P text r) (hb : b = true ↔ A) :
    Tells (fun _ => A) text (r.map fun _ => b) := by
  induction h with
  | nil => exact .nil hb
  | cons _ _ ih => exact .cons hb ih

/-- All that is left, and then what the row tells of nothing. -/
theorem toEnd (h : Tells P text r) : Tells (fun _ => P []) text r.toEnd :=
  h.const h.getLastD

end Tells

end Row

end ExportAtlas
