import ExportAtlas.Proofs.Source.Opening
/-!
# The lines of a program

What the walk of a scan does on one statement, whatever follows it. A
statement ends its line, so what follows begins a word of its own, and
behind the first letter of its opening words no phrase of any form begins
(`calm_text`). So a form either finds nothing in a statement
(`occurrencesFrom_text_of_none`), or finds one thing, at its start
(`occurrencesFrom_text_of_some`).
-/

namespace ExportAtlas

namespace Source

open Text (isBlank isWord)

variable {st : Statement} {b : List Char}

/-! ## Statements are calm behind their opening words -/

theorem exists_opening (st : Statement) : ∃ c o, st.opening = c :: o := by
  cases st with
  | function isAsync n => cases isAsync <;> exact ⟨_, _, rfl⟩
  | member viaModule n v => cases viaModule <;> exact ⟨_, _, rfl⟩
  | _ => exact ⟨_, _, rfl⟩

theorem closes_closing (st : Statement) (b : List Char) : closes (st.closing ++ b) = true := by
  cases st with
  | constant n type? v =>
    cases type? with
    | none => rfl
    | some t => rfl
  | object first others =>
    cases others with
    | nil => rfl
    | cons k ks => rfl
  | _ => rfl

theorem calm_value {phrase : List Char → Bool} (hp : IsPhrase phrase) (v : Value) :
    calm phrase v.text b = true := by
  cases v with
  | number d =>
    refine calm_of_all hp (List.all_eq_true.mpr fun c hc => ?_)
    -- a digit or the sign, and so neither of the two letters
    rcases d.isDigit_or_sign hc with h | rfl
    · have he : c ≠ 'e' := by rintro rfl; cases h
      have hm : c ≠ 'm' := by rintro rfl; cases h
      simp [he, hm]
    · rfl
  | _ => exact calm_of_all hp rfl

theorem calm_assignment {phrase : List Char → Bool} (hp : IsPhrase phrase) (v : Value) :
    calm phrase (" = ".toList ++ (v.text ++ ";\n".toList)) b = true := by
  rw [calm_append, calm_append, calm_value hp v, calm_of_all hp rfl, calm_of_all hp rfl]
  rfl

/-- What is written behind commas: it is as calm as its items, and closes the
name in front of it. -/
theorem calm_further {phrase : List Char → Bool} (hp : IsPhrase phrase) {items : List (List Char)}
    (hitems : ∀ item ∈ items, ∀ b, closes b = true → calm phrase item b = true)
    (hb : closes b = true) :
    calm phrase (items.flatMap (", ".toList ++ ·)) b = true ∧
      closes (items.flatMap (", ".toList ++ ·) ++ b) = true := by
  induction items with
  | nil => exact ⟨rfl, hb⟩
  | cons item items ih =>
    obtain ⟨hcalm, hcloses⟩ := ih fun i hi => hitems i (List.mem_cons_of_mem item hi)
    refine ⟨?_, rfl⟩
    rw [List.flatMap_cons, List.append_assoc, calm_append, calm_append, hcalm,
      hitems item (List.mem_cons_self ..) _ hcloses, calm_of_all hp rfl]
    rfl

/-- So it is with the keys of an object literal after the first. -/
theorem calm_keys {phrase : List Char → Bool} (hp : IsPhrase phrase) (ks : List Identifier) :
    calm phrase (furtherKeys ks ++ " \x7d;\n".toList) b = true := by
  have hkeys : furtherKeys ks = (ks.map Identifier.chars).flatMap (", ".toList ++ ·) := by
    rw [List.flatMap_map, furtherKeys]
  have hnames : ∀ item ∈ ks.map Identifier.chars, ∀ b, closes b = true →
      calm phrase item b = true :=
    List.forall_mem_map.mpr fun k _ b hb => calm_name hp k hb
  have hclose : closes (" \x7d;\n".toList ++ b) = true := rfl
  rw [calm_append, hkeys, (calm_further hp hnames hclose).1, calm_of_all hp rfl]
  rfl

/-- **What closes a statement is calm.** -/
theorem calm_closing {phrase : List Char → Bool} (hp : IsPhrase phrase) (st : Statement)
    (b : List Char) : calm phrase st.closing b = true := by
  cases st with
  | constant n type? v =>
    cases type? with
    | none => exact calm_assignment hp v
    | some t =>
      have hclose : closes (" = ".toList ++ (v.text ++ ";\n".toList) ++ b) = true := rfl
      change calm phrase (": ".toList ++ (t.chars ++ (" = ".toList ++ (v.text ++ ";\n".toList)))) b
        = true
      rw [calm_append, calm_append, calm_assignment hp v, calm_name hp t hclose, calm_of_all hp rfl]
      rfl
  | member viaModule n v => exact calm_assignment hp v
  | object first others => exact calm_keys hp others
  | _ => exact calm_of_all hp rfl

/-- **Behind the first letter of its opening words, a statement is calm.**
Under the phrases of members the opening words `module.exports.` are an
exception. -/
theorem calm_text {phrase : List Char → Bool} (hp : IsPhrase phrase) {c : Char} {o : List Char}
    (ho : st.opening = c :: o)
    (hcalm : calm phrase o (st.subject.chars ++ st.closing ++ b) = true) :
    ∃ s, st.text = c :: s ∧ calm phrase s b = true := by
  refine ⟨o ++ (st.subject.chars ++ st.closing), by rw [Statement.text, ho]; rfl, ?_⟩
  rw [calm_append, hcalm, calm_append, calm_name hp _ (closes_closing st b), calm_closing hp]
  rfl

theorem calm_opens_text (st : Statement) (b : List Char) :
    ∃ c s, st.text = c :: s ∧ calm opens s b = true := by
  have key : ∃ c o, st.opening = c :: o ∧
      calm opens o (st.subject.chars ++ st.closing ++ b) = true := by
    cases st with
    | function isAsync n => cases isAsync <;> exact ⟨_, _, rfl, rfl⟩
    | member viaModule n v => cases viaModule <;> exact ⟨_, _, rfl, rfl⟩
    | _ => exact ⟨_, _, rfl, rfl⟩
  obtain ⟨c, o, ho, hcalm⟩ := key
  exact ⟨c, calm_text isPhrase_opens ho hcalm⟩

/-- The statement is `module.exports.N = V;`. -/
def Statement.isModuleMember : Statement → Bool
  | member viaModule _ _ => viaModule
  | _ => false

theorem calm_opensMember_text (h : st.isModuleMember = false) (b : List Char) :
    ∃ c s, st.text = c :: s ∧ calm opensMember s b = true := by
  have key : ∃ c o, st.opening = c :: o ∧
      calm opensMember o (st.subject.chars ++ st.closing ++ b) = true := by
    cases st with
    | function isAsync n => cases isAsync <;> exact ⟨_, _, rfl, rfl⟩
    | member viaModule n v =>
      cases viaModule with
      | false => exact ⟨_, _, rfl, rfl⟩
      | true => cases h
    | _ => exact ⟨_, _, rfl, rfl⟩
  obtain ⟨c, o, ho, hcalm⟩ := key
  exact ⟨c, calm_text isPhrase_opensMember ho hcalm⟩

/-! ## The walk over one statement -/

theorem endsInWord_assignment (v : Value) (w : Bool) :
    endsInWord w (" = ".toList ++ (v.text ++ ";\n".toList)) = false := by
  rw [endsInWord_append, endsInWord_append]
  rfl

theorem endsInWord_closing (st : Statement) (w : Bool) : endsInWord w st.closing = false := by
  cases st with
  | constant n type? v =>
    cases type? with
    | none => exact endsInWord_assignment v w
    | some t =>
      change endsInWord w (": ".toList ++ (t.chars ++ (" = ".toList ++ (v.text ++ ";\n".toList))))
        = false
      rw [endsInWord_append, endsInWord_append, endsInWord_assignment]
  | member viaModule n v => exact endsInWord_assignment v w
  | object first others =>
    change endsInWord w (furtherKeys others ++ " \x7d;\n".toList) = false
    rw [endsInWord_append]
    rfl
  | _ => rfl

/-- A statement ends its line, so what follows it begins a word. -/
theorem endsInWord_text (st : Statement) (w : Bool) : endsInWord w st.text = false := by
  rw [Statement.text, endsInWord_append, endsInWord_append, endsInWord_closing]

section Walk

variable {α : Type} {scan : Scan α} {phrase : List Char → Bool} {found : α} {p : Nat}

/-- **A statement in which the scan finds nothing** is passed over. -/
theorem occurrencesFrom_text_of_none (hscan : ∀ s, phrase s = false → scan s = none)
    (hcalm : ∃ c s, st.text = c :: s ∧ calm phrase s b = true)
    (hnone : scan (st.text ++ b) = none) :
    occurrencesFrom scan false 0 p (st.text ++ b) =
      occurrencesFrom scan false 0 (p + st.text.length) b := by
  have hend := endsInWord_text st false
  obtain ⟨c, s, htext, hc⟩ := hcalm
  rw [htext] at hnone hend ⊢
  rw [occurrencesFrom_of_none p hnone (SilentOn.of_calm hscan hc), hend]

/-- **A statement that the scan reads** adds one finding, at its start. What
the scan leaves over is the end `y` of what closes the statement. -/
theorem occurrencesFrom_text_of_some (hp : IsPhrase phrase)
    (hscan : ∀ s, phrase s = false → scan s = none) {z y : List Char}
    (hclosing : st.closing = z ++ y) (hsome : scan (st.text ++ b) = some (found, y ++ b)) :
    occurrencesFrom scan false 0 p (st.text ++ b) =
      (p, found) :: occurrencesFrom scan false 0 (p + st.text.length) b := by
  have hend := endsInWord_text st false
  -- what the scan leaves over is calm, as an end of what closes the statement
  have hsilent : SilentOn scan y b := by
    have := SilentOn.of_calm hscan (calm_closing hp st b)
    rw [hclosing] at this
    exact this.of_append
  -- what the scan has read begins with the opening words, and is not empty
  obtain ⟨c, o, ho⟩ := exists_opening st
  have htext : st.text = c :: (o ++ (st.subject.chars ++ z) ++ y) := by
    rw [Statement.text, ho, hclosing, List.cons_append, List.append_assoc, List.append_assoc]
  rw [htext] at hsome hend ⊢
  rw [occurrencesFrom_of_some p hsome hsilent, hend]

end Walk

end Source

end ExportAtlas
