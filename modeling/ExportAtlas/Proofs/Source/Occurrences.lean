import Mathlib.Data.List.Basic
import ExportAtlas.Source.Scan
/-!
# Where a scan succeeds

`occurrencesFrom` walks over a text one character at a time. Two kinds of
statement are made about the walk. Backwards, a finding comes from a place
of the text at which the scan succeeds (`mem_occurrences`). Forwards, the
walk is followed over a stretch of text whose continuation is not known: a
stretch that belongs to the last finding is passed over
(`occurrencesFrom_skip`), and so is one at no place of which the scan
succeeds (`occurrencesFrom_silent`).
-/

namespace ExportAtlas

namespace Source

open Text (isWord)

variable {α : Type} {scan : Scan α}

/-! ## Findings come from places of the text -/

theorem mem_occurrencesFrom :
    ∀ {text : List Char} {inWord : Bool} {skip position p : Nat} {found : α},
      (p, found) ∈ occurrencesFrom scan inWord skip position text →
      ∃ before rest left, text = before ++ rest ∧ p = position + before.length ∧
        scan rest = some (found, left) := by
  intro text
  induction text with
  | nil =>
    intro inWord skip position p found h
    cases skip <;> simp [occurrencesFrom] at h
  | cons c text ih =>
    intro inWord skip position p found h
    -- a finding further on is one of the walk over what follows `c`
    have hlater : ∀ {w s}, (p, found) ∈ occurrencesFrom scan w s (position + 1) text →
        ∃ before rest left, c :: text = before ++ rest ∧ p = position + before.length ∧
          scan rest = some (found, left) := by
      intro w s hmem
      obtain ⟨before, rest, left, htext, hp, hscan⟩ := ih hmem
      exact ⟨c :: before, rest, left, by rw [htext]; rfl, by simp [hp]; omega, hscan⟩
    cases skip with
    | succ skip =>
      rw [occurrencesFrom] at h
      exact hlater h
    | zero =>
      rw [occurrencesFrom] at h
      split at h
      · exact hlater h
      · rename_i found' left hscan
        rcases List.mem_cons.mp h with heq | hmem
        · obtain ⟨rfl, rfl⟩ := Prod.mk.inj heq
          cases inWord with
          | true => simp at hscan
          | false => exact ⟨[], c :: text, left, rfl, rfl, by simpa using hscan⟩
        · exact hlater hmem

/-- **A finding is read off the text**: it is what the scan finds at the
place it is listed with. -/
theorem mem_occurrences {text : List Char} {p : Nat} {found : α}
    (h : (p, found) ∈ occurrences scan text) :
    ∃ before rest left, text = before ++ rest ∧ p = before.length ∧
      scan rest = some (found, left) := by
  obtain ⟨before, rest, left, htext, hp, hscan⟩ := mem_occurrencesFrom h
  exact ⟨before, rest, left, htext, by simpa using hp, hscan⟩

/-! ## Following the walk -/

/-- A stretch of text ends in a word character; an empty one ends as what
stands before it does. -/
def endsInWord : (inWord : Bool) → List Char → Bool
  | inWord, [] => inWord
  | _, c :: s => endsInWord (isWord c) s

theorem endsInWord_append (w : Bool) (a b : List Char) :
    endsInWord w (a ++ b) = endsInWord (endsInWord w a) b := by
  induction a generalizing w with
  | nil => rfl
  | cons c a ih => exact ih (isWord c)

/-- The rest of a finding is passed over. -/
theorem occurrencesFrom_skip (a b : List Char) (w : Bool) (p : Nat) :
    occurrencesFrom scan w a.length p (a ++ b) =
      occurrencesFrom scan (endsInWord w a) 0 (p + a.length) b := by
  induction a generalizing w p with
  | nil => rfl
  | cons c a ih =>
    rw [List.length_cons, List.cons_append, occurrencesFrom, ih, endsInWord,
      show p + 1 + a.length = p + (a.length + 1) by omega]

/-- The scan succeeds at no place of a stretch `a` of text that `b`
follows. -/
def SilentOn (scan : Scan α) (a b : List Char) : Prop :=
  ∀ x y, a = x ++ y → y ≠ [] → scan (y ++ b) = none

theorem SilentOn.of_append {x a b : List Char} (h : SilentOn scan (x ++ a) b) :
    SilentOn scan a b := by
  intro y z heq hz
  exact h (x ++ y) z (by rw [heq, List.append_assoc]) hz

/-- A silent stretch is passed over. -/
theorem occurrencesFrom_silent {a b : List Char} (h : SilentOn scan a b) (w : Bool) (p : Nat) :
    occurrencesFrom scan w 0 p (a ++ b) =
      occurrencesFrom scan (endsInWord w a) 0 (p + a.length) b := by
  induction a generalizing w p with
  | nil => rfl
  | cons c a ih =>
    have hc : (if w then none else scan (c :: (a ++ b))) = none := by
      rw [← List.cons_append, h [] (c :: a) rfl (List.cons_ne_nil c a), ite_self]
    have ha : SilentOn scan a b := SilentOn.of_append (x := [c]) h
    rw [List.cons_append, occurrencesFrom, hc]
    change occurrencesFrom scan (isWord c) 0 (p + 1) (a ++ b) = _
    rw [ih ha, endsInWord, List.length_cons, show p + 1 + a.length = p + (a.length + 1) by omega]

/-- And so is the rest of a finding together with a silent stretch behind
it. -/
theorem occurrencesFrom_passed {a b : List Char} {skip : Nat} (hskip : skip ≤ a.length)
    (h : SilentOn scan a b) (w : Bool) (p : Nat) :
    occurrencesFrom scan w skip p (a ++ b) =
      occurrencesFrom scan (endsInWord w a) 0 (p + a.length) b := by
  obtain ⟨x, y, rfl, rfl⟩ : ∃ x y, a = x ++ y ∧ skip = x.length :=
    ⟨a.take skip, a.drop skip, (List.take_append_drop skip a).symm, by
      rw [List.length_take, Nat.min_eq_left hskip]⟩
  rw [List.append_assoc, occurrencesFrom_skip, occurrencesFrom_silent (SilentOn.of_append h),
    endsInWord_append, List.length_append, Nat.add_assoc]

/-- A walk that begins at a later position finds the same, at later
positions. -/
theorem occurrencesFrom_add {s : List Char} (k : Nat) (w : Bool) (skip p : Nat) :
    occurrencesFrom scan w skip (p + k) s =
      (occurrencesFrom scan w skip p s).map (Prod.map (· + k) id) := by
  induction s generalizing w skip p with
  | nil => cases skip <;> rfl
  | cons c s ih =>
    have hnext : p + k + 1 = p + 1 + k := by omega
    cases skip with
    | succ skip => rw [occurrencesFrom, occurrencesFrom, hnext, ih]
    | zero =>
      rw [occurrencesFrom, occurrencesFrom, hnext]
      split
      · exact ih _ _ _
      · rw [ih]
        rfl

/-- **A scan that fails at the start of a word** goes on behind the silent
stretch it stands on. -/
theorem occurrencesFrom_of_none {c : Char} {a b : List Char} (p : Nat)
    (hnone : scan (c :: a ++ b) = none) (hsilent : SilentOn scan a b) :
    occurrencesFrom scan false 0 p (c :: a ++ b) =
      occurrencesFrom scan (endsInWord false (c :: a)) 0 (p + (c :: a).length) b := by
  -- with the failure at its first character the whole stretch is silent
  refine occurrencesFrom_silent (fun x y heq hy => ?_) false p
  cases x with
  | nil => rw [← show c :: a = y from heq]; exact hnone
  | cons d x => exact hsilent x y (List.cons.inj heq).2 hy

/-- **A scan that succeeds at the start of a word** adds its finding, and
goes on behind the silent stretch `y` that it has left over. -/
theorem occurrencesFrom_of_some {c : Char} {x y b : List Char} {found : α} (p : Nat)
    (hsome : scan (c :: (x ++ y) ++ b) = some (found, y ++ b)) (hsilent : SilentOn scan y b) :
    occurrencesFrom scan false 0 p (c :: (x ++ y) ++ b) =
      (p, found) :: occurrencesFrom scan (endsInWord false (c :: (x ++ y))) 0
        (p + (c :: (x ++ y)).length) b := by
  have hlen : (x ++ y ++ b).length - (y ++ b).length = x.length := by
    simp only [List.length_append]
    omega
  rw [List.cons_append, occurrencesFrom]
  rw [List.cons_append] at hsome
  simp only [Bool.false_eq_true, if_false, hsome]
  -- what was read is skipped by its length, and then what was left over is silent
  rw [hlen, List.append_assoc, occurrencesFrom_skip, occurrencesFrom_silent hsilent, endsInWord,
    endsInWord_append]
  simp only [List.length_cons, List.length_append]
  rw [show p + 1 + x.length + y.length = p + (x.length + y.length + 1) by omega]

end Source

end ExportAtlas
