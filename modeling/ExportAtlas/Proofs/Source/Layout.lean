import ExportAtlas.Proofs.Source.Assigned
import ExportAtlas.Proofs.Source.Filing
/-!
# Where the declarations of a program stand

Each statement declares its symbols on its own line (`position_declaredAt`),
in order. So read form by form or statement by statement, the declarations
of a program are the same at every place of its text (`filter_parts`): only
one statement stands there, and it is written in one form.
-/

namespace ExportAtlas

namespace Source

variable {β : Type} {sts : List Statement}

/-! ## What the statements declare, in place -/

/-- The declarations of a statement that begins at position `p`. The keys of
an object literal are declared where they stand. -/
def Statement.declaredAt (p : Nat) : Statement → List Declaration
  | object first others => keysAt (p + 18) (first :: others)
  | st => st.declares.map fun (role, name) => ⟨p, role, name⟩

/-- What is read off each statement in turn, when the first of them begins at
position `p`. -/
def readFrom (read : Nat → Statement → List β) : (p : Nat) → List Statement → List β
  | _, [] => []
  | p, st :: sts => read p st ++ readFrom read (p + st.text.length) sts

/-- The declarations of a statement, if it is written in a form. -/
def inForm (f : Form) (p : Nat) (st : Statement) : List Declaration :=
  if st.form = f then st.declaredAt p else []

theorem saying_keysAt (p : Nat) (ks : List Identifier) :
    (keysAt p ks).map Declaration.saying = ks.map fun k => (.function, k.name) := by
  induction ks generalizing p with
  | nil => rfl
  | cons k ks ih =>
    rw [keysAt, List.map_cons, ih]
    rfl

theorem saying_declaredAt (p : Nat) (st : Statement) :
    (st.declaredAt p).map Declaration.saying = st.declares := by
  have key : ∀ said : List (Role × String),
      (said.map fun (role, name) => (⟨p, role, name⟩ : Declaration)).map Declaration.saying =
        said := by
    intro said
    rw [List.map_map]
    exact List.map_id said
  cases st with
  | object first others => exact saying_keysAt _ _
  | _ => exact key _

theorem saying_readFrom (p : Nat) (sts : List Statement) :
    (readFrom (fun p st => st.declaredAt p) p sts).map Declaration.saying =
      sts.flatMap Statement.declares := by
  induction sts generalizing p with
  | nil => rfl
  | cons st sts ih => rw [readFrom, List.map_append, saying_declaredAt, ih, List.flatMap_cons]

theorem inForm_of_ne {f : Form} {st : Statement} (h : st.form ≠ f) (p : Nat) :
    inForm f p st = [] := if_neg h

theorem inForm_of_eq {f : Form} {st : Statement} (h : st.form = f) (p : Nat) :
    inForm f p st = st.declaredAt p := if_pos h

/-! ## The order of the declarations -/

theorem length_keys (k : Identifier) (ks : List Identifier) :
    (furtherKeys (k :: ks)).length =
      k.chars.length + 2 + (furtherKeys ks).length := by
  rw [furtherKeys_cons, List.length_append, List.length_append]
  change 2 + (k.chars.length + (furtherKeys ks).length) = _
  omega

theorem position_keysAt {d : Declaration} {p : Nat} {ks : List Identifier}
    (h : d ∈ keysAt p ks) :
    p ≤ d.position ∧ d.position < p + (furtherKeys ks).length := by
  induction ks generalizing p with
  | nil => cases h
  | cons k ks ih =>
    have hlen := length_keys k ks
    rcases List.mem_cons.mp h with rfl | hmem
    · change p ≤ p ∧ p < _
      omega
    · have := ih hmem
      omega

/-- The declarations of a statement lie in its line. -/
theorem position_declaredAt {d : Declaration} {p : Nat} {st : Statement}
    (h : d ∈ st.declaredAt p) : p ≤ d.position ∧ d.position < p + st.text.length := by
  have hpos : 0 < st.text.length := by
    obtain ⟨c, s, htext, -⟩ := calm_opens_text st []
    rw [htext]
    exact Nat.succ_pos _
  have key : ∀ said : List (Role × String),
      d ∈ (said.map fun (role, name) => (⟨p, role, name⟩ : Declaration)) → d.position = p := by
    intro said hd
    obtain ⟨s, -, rfl⟩ := List.mem_map.mp hd
    rfl
  cases st with
  | object first others =>
    have hkeys := position_keysAt h
    have hlen : (Statement.object first others).text.length = 19 + (first.chars.length +
        ((furtherKeys others).length + 4)) := by
      rw [Statement.text, List.length_append, List.length_append]
      change _ + (_ + (furtherKeys others ++ " \x7d;\n".toList).length)
        = _
      rw [List.length_append]
      rfl
    rw [length_keys] at hkeys
    omega
  | _ =>
    have := key _ h
    omega

/-- They stand in order. -/
theorem pairwise_declaredAt (p : Nat) (st : Statement) :
    (st.declaredAt p).Pairwise fun a b => a.position ≤ b.position := by
  have hkeys : ∀ (ks : List Identifier) (p : Nat),
      (keysAt p ks).Pairwise fun a b => a.position ≤ b.position := by
    intro ks
    induction ks with
    | nil => exact fun p => List.Pairwise.nil
    | cons k ks ih =>
      intro p
      refine List.pairwise_cons.mpr ⟨fun d hd => ?_, ih _⟩
      have := (position_keysAt hd).1
      change p ≤ d.position
      omega
  have hsame : ∀ said : List (Role × String),
      (said.map fun (role, name) => (⟨p, role, name⟩ : Declaration)).Pairwise
        fun a b => a.position ≤ b.position :=
    fun said => List.pairwise_map.mpr (List.pairwise_of_forall fun _ _ => Nat.le_refl p)
  cases st with
  | object first others => exact hkeys _ _
  | _ => exact hsame _

theorem le_position_readFrom {read : Nat → Statement → List Declaration}
    (h : ∀ q st, ∀ d ∈ read q st, d ∈ st.declaredAt q) {p : Nat} {d : Declaration}
    (hd : d ∈ readFrom read p sts) : p ≤ d.position := by
  induction sts generalizing p with
  | nil => cases hd
  | cons st sts ih =>
    rcases List.mem_append.mp hd with hd | hd
    · exact (position_declaredAt (h p st d hd)).1
    · have := ih hd
      omega

/-- The declarations of a program stand in order, statement by statement. -/
theorem pairwise_readFrom (p : Nat) (sts : List Statement) :
    (readFrom (fun p st => st.declaredAt p) p sts).Pairwise
      fun a b => a.position ≤ b.position := by
  induction sts generalizing p with
  | nil => exact List.Pairwise.nil
  | cons st sts ih =>
    refine List.pairwise_append.mpr ⟨pairwise_declaredAt p st, ih _, fun a ha b hb => ?_⟩
    have hb' := le_position_readFrom (fun q st d hd => hd) hb
    have ha' := (position_declaredAt ha).2
    omega

/-! ## Form by form -/

/-- The forms, in the order in which they are looked for. -/
def forms : List Form :=
  [.function, .constant, .type, .interface, .classDef, .defaultFunction, .defaultName,
    .defaultAlias, .member, .object, .wholeModule, .model]

/-- One form reads the statement, and the others nothing of it. -/
theorem flatMap_forms (p : Nat) (st : Statement) :
    (forms.flatMap fun f => inForm f p st) = st.declaredAt p := by
  unfold inForm
  cases st.form <;> simp [forms]

/-- **At each place of the text** the declarations are those of the one form
that reads the statement there. -/
theorem filter_parts (x p : Nat) (sts : List Statement) :
    (forms.flatMap fun f => readFrom (inForm f) p sts).filter (fun d => d.position == x) =
      (readFrom (fun p st => st.declaredAt p) p sts).filter fun d => d.position == x := by
  induction sts generalizing p with
  | nil => rfl
  | cons st sts ih =>
    have hsub : ∀ f q st, ∀ d ∈ inForm f q st, d ∈ st.declaredAt q := by
      intro f q st d hd
      unfold inForm at hd
      split at hd
      · exact hd
      · cases hd
    rcases Nat.lt_or_ge x (p + st.text.length) with hx | hx
    · -- in the first line or before it, where no later statement declares anything
      have htail : ∀ read, (∀ q st, ∀ d ∈ read q st, d ∈ st.declaredAt q) →
          (readFrom read (p + st.text.length) sts).filter (fun d => d.position == x) = [] := by
        intro read hread
        refine List.filter_eq_nil_iff.mpr fun d hd => ?_
        have := le_position_readFrom hread hd
        simp only [beq_iff_eq]
        omega
      have htails : ∀ f,
          (readFrom (inForm f) (p + st.text.length) sts).filter (fun d => d.position == x) = [] :=
        fun f => htail _ (hsub f)
      rw [List.filter_flatMap, readFrom, List.filter_append, htail _ fun q st d hd => hd,
        ← flatMap_forms p st, List.filter_flatMap, List.append_nil]
      simp only [readFrom, List.filter_append, htails, List.append_nil]
    · -- behind the first line, which then declares nothing at the place
      have hhead : ∀ ds : List Declaration, (∀ d ∈ ds, d ∈ st.declaredAt p) →
          ds.filter (fun d => d.position == x) = [] := by
        intro ds hds
        refine List.filter_eq_nil_iff.mpr fun d hd => ?_
        have := (position_declaredAt (hds d hd)).2
        simp only [beq_iff_eq]
        omega
      have hheads : ∀ f, (inForm f p st).filter (fun d => d.position == x) = [] :=
        fun f => hhead _ (hsub f p st)
      rw [readFrom, List.filter_append, hhead _ fun d hd => hd, List.nil_append,
        ← ih, List.filter_flatMap, List.filter_flatMap]
      simp only [readFrom, List.filter_append, hheads, List.nil_append]

end Source

end ExportAtlas
