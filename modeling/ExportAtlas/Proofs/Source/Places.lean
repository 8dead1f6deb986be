import ExportAtlas.Proofs.Source.AfterDefault
/-!
# What is found at one place

A scan lists its findings from left to right, each at a place of its own
(`pairwise_occurrences`). So a finding is all that is found at its place
(`filter_occurrences_of_mem`), nothing is found where the scan fails
(`filter_occurrences_of_none`), and a place where it succeeds comes first if
nothing is found in front of it (`head?_occurrences`).

What a form declares stands at the places where it is found, so the declarations
of one place are told form by form, and those of the front of a text come before
all others (`declarationsOf_eq_append`).
-/

namespace ExportAtlas

namespace Source

open Text (isWord)

variable {α : Type} {scan : Scan α} {c : Char} {before left n rest s text value : List Char}
  {found : α} {p : Nat}

/-! ## The order of the findings -/

theorem le_of_mem_occurrencesFrom {w : Bool} {skip position : Nat} {r : Nat × α}
    (h : r ∈ occurrencesFrom scan w skip position text) : position ≤ r.1 := by
  obtain ⟨before, rest, left, -, hp, -⟩ := mem_occurrencesFrom h
  omega

theorem pairwise_occurrencesFrom (scan : Scan α) (text : List Char) (w : Bool)
    (skip position : Nat) :
    (occurrencesFrom scan w skip position text).Pairwise fun a b => a.1 < b.1 := by
  induction text generalizing w skip position with
  | nil => cases skip <;> exact List.Pairwise.nil
  | cons c text ih =>
    cases skip with
    | succ skip =>
      rw [occurrencesFrom]
      exact ih _ _ _
    | zero =>
      rw [occurrencesFrom]
      split
      · exact ih _ _ _
      · -- what is found later is found behind this place
        refine List.pairwise_cons.mpr ⟨fun r hr => ?_, ih _ _ _⟩
        have := le_of_mem_occurrencesFrom hr
        dsimp only
        omega

/-- **Findings stand from left to right**, each at a place of its own. -/
theorem pairwise_occurrences (scan : Scan α) (text : List Char) :
    (occurrences scan text).Pairwise fun a b => a.1 < b.1 :=
  pairwise_occurrencesFrom scan text false 0 0

/-! ## One place -/

/-- **A finding is all that is found at its place.** -/
theorem filter_occurrences_of_mem (h : (p, found) ∈ occurrences scan text) :
    (occurrences scan text).filter (fun r => r.1 == p) = [(p, found)] := by
  obtain ⟨earlier, later, heq⟩ := List.append_of_mem h
  have hsorted := pairwise_occurrences scan text
  rw [heq, List.pairwise_append, List.pairwise_cons] at hsorted
  obtain ⟨-, ⟨hlater, -⟩, hearlier⟩ := hsorted
  have hnone : earlier.filter (fun r => r.1 == p) = [] := by
    refine List.filter_eq_nil_iff.mpr fun r hr => ?_
    have := hearlier r hr (p, found) (List.mem_cons_self ..)
    simp only [beq_iff_eq]
    omega
  have hnone' : later.filter (fun r => r.1 == p) = [] := by
    refine List.filter_eq_nil_iff.mpr fun r hr => ?_
    have := hlater r hr
    simp only [beq_iff_eq]
    omega
  have hself : ((p, found).1 == p) = true := beq_self_eq_true p
  rw [heq, List.filter_append, hnone, List.filter_cons, if_pos hself, hnone']
  rfl

/-- Nothing is found where the scan fails. -/
theorem filter_occurrences_of_none (before : List Char) (h : scan rest = none) :
    (occurrences scan (before ++ rest)).filter (fun r => r.1 == before.length) = [] := by
  refine List.filter_eq_nil_iff.mpr fun r hr => ?_
  obtain ⟨before', rest', left, htext, hp, hscan⟩ := mem_occurrences hr
  rw [beq_iff_eq]
  intro hplace
  -- a place is told by what stands in front of it
  have hrest := List.append_inj_right htext (by omega)
  rw [← hrest, h] at hscan
  cases hscan

/-- What is declared of each finding, at one place. -/
theorem filter_flatMap_occurrences {declared : Nat × α → List Declaration}
    (hplace : ∀ r, ∀ d ∈ declared r, d.position = r.1) (rs : List (Nat × α)) (p : Nat) :
    (rs.flatMap declared).filter (fun d => d.position == p) =
      (rs.filter fun r => r.1 == p).flatMap declared := by
  induction rs with
  | nil => rfl
  | cons r rs ih =>
    rw [List.flatMap_cons, List.filter_append, ih, List.filter_cons]
    split
    · rename_i hr
      rw [List.flatMap_cons, List.filter_eq_self.mpr fun d hd => by rwa [hplace r d hd]]
    · rename_i hr
      rw [List.filter_eq_nil_iff.mpr fun d hd => by rwa [hplace r d hd], List.nil_append]

/-- A form that fails at a place declares nothing there. -/
theorem filter_declare_of_none {scan : Scan (List Char)} (role : Role) (before : List Char)
    (h : scan rest = none) :
    (declare role (occurrences scan (before ++ rest))).filter
      (fun d => d.position == before.length) = [] := by
  rw [declare, List.map_eq_flatMap, filter_flatMap_occurrences fun r d hd => ?_,
    filter_occurrences_of_none before h]
  · rfl
  · rw [List.mem_singleton.mp hd]

theorem filter_declareUnreserved_of_none {scan : Scan (List Char)} (role : Role)
    (before : List Char) (h : scan rest = none) :
    (declareUnreserved role (occurrences scan (before ++ rest))).filter
      (fun d => d.position == before.length) = [] := by
  rw [declareUnreserved, filter_swap, filter_declare_of_none role before h]
  rfl

/-! ## The first place -/

theorem head?_occurrencesFrom (hscan : scan (c :: s) = some (found, left)) {w : Bool}
    {position : Nat} (hword : endsInWord w before = false)
    (hfirst : ∀ r ∈ occurrencesFrom scan w 0 position (before ++ c :: s),
      position + before.length ≤ r.1) :
    (occurrencesFrom scan w 0 position (before ++ c :: s)).head? =
      some (position + before.length, found) := by
  induction before generalizing w position with
  | nil =>
    have hw : w = false := hword
    rw [List.nil_append, occurrencesFrom, hw, if_neg Bool.false_ne_true, hscan]
    rfl
  | cons d before ih =>
    rw [List.cons_append, occurrencesFrom] at hfirst ⊢
    -- a finding here would stand in front of the place
    cases hread : if w then none else scan (d :: (before ++ c :: s)) with
    | some r =>
      rw [hread] at hfirst
      have := hfirst _ (List.mem_cons_self ..)
      rw [List.length_cons] at this
      omega
    | none =>
      rw [hread] at hfirst
      have hlength : position + (d :: before).length = position + 1 + before.length := by
        rw [List.length_cons]
        omega
      rw [hlength] at hfirst ⊢
      exact ih hword hfirst

/-- **The first finding** is at the start of a word where the scan succeeds, if
nothing is found in front of it. -/
theorem head?_occurrences (hscan : scan (c :: s) = some (found, left))
    (hword : endsInWord false before = false)
    (hfirst : ∀ r ∈ occurrences scan (before ++ c :: s), before.length ≤ r.1) :
    (occurrences scan (before ++ c :: s)).head? = some (before.length, found) := by
  have hplace : ∀ r ∈ occurrencesFrom scan false 0 0 (before ++ c :: s),
      0 + before.length ≤ r.1 := by
    rw [Nat.zero_add]
    exact hfirst
  rw [occurrences, head?_occurrencesFrom hscan hword hplace, Nat.zero_add]

/-- At the front of a text nothing stands in front. -/
theorem mem_occurrences_front (hscan : scan (c :: s) = some (found, left)) :
    (0, found) ∈ occurrences scan (c :: s) :=
  have hhead := head?_occurrencesFrom hscan (show endsInWord false [] = false from rfl)
    fun _ _ => Nat.zero_le _
  List.mem_of_mem_head? hhead

/-! ## What is declared at one place -/

/-- A constant whose initializer reads as a function is one. -/
def valueRole (value : List Char) : Role := if isCallable value then .function else .constant

theorem valueRole_eq_function : valueRole value = .function ↔ isCallable value = true := by
  unfold valueRole
  split <;> simp [*]

theorem valueRole_eq_constant : valueRole value = .constant ↔ isCallable value = false := by
  unfold valueRole
  split <;> simp [*]

theorem isValue_valueRole (value : List Char) : (valueRole value).isValue = true := by
  unfold valueRole
  split <;> rfl

/-- What a constant at place `p` declares, read from the text behind its
name. -/
def constantAt (p : Nat) (n rest : List Char) : List Declaration :=
  ((EsModule.initializer rest).map fun value => ⟨p, valueRole value, String.ofList n⟩).toList

theorem constants_eq_flatMap (text : List Char) : EsModule.constants text =
    (occurrences EsModule.constantForm text).flatMap fun r => constantAt r.1 r.2.1 r.2.2 :=
  List.filterMap_eq_flatMap_toList ..

theorem filter_constants (text : List Char) (p : Nat) :
    (EsModule.constants text).filter (fun d => d.position == p) =
      ((occurrences EsModule.constantForm text).filter fun r => r.1 == p).flatMap fun r =>
        constantAt r.1 r.2.1 r.2.2 := by
  rw [constants_eq_flatMap, filter_flatMap_occurrences fun r d hd => ?_]
  obtain ⟨value, -, rfl⟩ := Option.map_eq_some_iff.mp (Option.mem_toList.mp hd)
  rfl

/-- What a member at place `p` declares, read from the text behind its
assignment. -/
def memberAt (p : Nat) (n value : List Char) : List Declaration :=
  if value.head? = some '=' then []
  else if isCallableAssignment value then [⟨p, .function, String.ofList n⟩]
  else if CommonJs.isConstantName n then [⟨p, .constant, String.ofList n⟩]
  else []

theorem position_of_mem_memberAt {d : Declaration} (h : d ∈ memberAt p n value) :
    d.position = p := by
  unfold memberAt at h
  split_ifs at h
  · cases h
  · rw [List.mem_singleton.mp h]
  · rw [List.mem_singleton.mp h]
  · cases h

theorem members_eq_flatMap (text : List Char) : CommonJs.members text =
    (occurrences CommonJs.memberForm text).flatMap fun r => memberAt r.1 r.2.1 r.2.2 := by
  rw [CommonJs.members, List.filterMap_eq_flatMap_toList]
  refine congrArg (List.flatMap · _) (funext fun r => ?_)
  obtain ⟨p, n, value⟩ := r
  unfold memberAt
  dsimp only
  split_ifs <;> rfl

theorem filter_members (text : List Char) (p : Nat) :
    (CommonJs.members text).filter (fun d => d.position == p) =
      ((occurrences CommonJs.memberForm text).filter fun r => r.1 == p).flatMap fun r =>
        memberAt r.1 r.2.1 r.2.2 := by
  rw [members_eq_flatMap,
    filter_flatMap_occurrences fun _ _ hd => position_of_mem_memberAt hd]

theorem filter_classes_of_none (before : List Char) (h : EsModule.classForm s = none) :
    (EsModule.classes (before ++ s)).filter (fun d => d.position == before.length) = [] := by
  rw [EsModule.classes, filter_flatMap_occurrences fun r d hd => ?_,
    filter_occurrences_of_none before h]
  · rfl
  · obtain ⟨q, isDefault, found⟩ := r
    cases isDefault with
    | true =>
      rcases List.mem_cons.mp hd with rfl | hd
      · rfl
      · rw [List.mem_singleton.mp hd]
    | false => rw [List.mem_singleton.mp hd]

/-- What the ES forms declare at one place of a text. -/
def EsModule.declaredAt (p : Nat) (text : List Char) : List Declaration :=
  (EsModule.declarations text).filter fun d => d.position == p

/-- Nothing is declared where no export is opened. -/
theorem EsModule.declaredAt_of_not_opens (before : List Char) (h : opensExport s = false) :
    EsModule.declaredAt before.length (before ++ s) = [] := by
  have hconstants : (EsModule.constants (before ++ s)).filter
      (fun d => d.position == before.length) = [] := by
    rw [filter_constants, filter_occurrences_of_none before (constantForm_of_not_opens h)]
    rfl
  simp only [EsModule.declaredAt, EsModule.declarations, List.filter_append, hconstants,
    filter_classes_of_none before (classForm_of_not_opens h),
    filter_declare_of_none _ before (functionForm_of_not_opens h),
    filter_declare_of_none _ before (typeForm_of_not_opens "type" h rfl),
    filter_declare_of_none _ before (typeForm_of_not_opens "interface" h rfl),
    filter_declare_of_none _ before (defaultFunctionForm_of_not_opens h),
    filter_declareUnreserved_of_none _ before (defaultNameForm_of_not_opens h),
    filter_declare_of_none _ before (defaultAliasForm_of_not_opens h), List.append_nil]

/-- The items of an object literal stand from left to right. -/
theorem le_of_mem_placed {items : List (List Char)} {r : Nat × List Char}
    (h : r ∈ CommonJs.placed p items) : p ≤ r.1 := by
  induction items generalizing p with
  | nil => cases h
  | cons item items ih =>
    rcases List.mem_cons.mp h with rfl | h
    · exact Nat.le_refl p
    · have := ih h
      omega

/-- The keys of an object literal stand behind its opening brace. -/
theorem position_ne_zero_of_mem_objectKeys {d : Declaration} (h : d ∈ CommonJs.objectKeys text) :
    d.position ≠ 0 := by
  rw [CommonJs.objectKeys] at h
  split at h
  · cases h
  · rename_i position offset body hhead
    obtain ⟨item, hmem, hd⟩ := List.mem_filterMap.mp h
    obtain ⟨before, rest, left, -, -, hform⟩ := mem_occurrences (List.mem_of_mem_head? hhead)
    obtain ⟨head, -, hoffset⟩ := exists_of_objectForm hform
    have hplace := le_of_mem_placed hmem
    rw [List.length_append, List.length_singleton] at hoffset
    rw [eq_of_keyDeclaration? hd]
    dsimp only
    omega

/-- At the front of a text CommonJS declares a member at most, unless a whole
module or a model stands there. -/
theorem CommonJs.filter_declarations_front (hwhole : CommonJs.wholeForm text = none)
    (hmodel : CommonJs.modelForm text = none) :
    (CommonJs.declarations text).filter (fun d => d.position == 0) =
      (CommonJs.members text).filter fun d => d.position == 0 := by
  have hkeys : (CommonJs.objectKeys text).filter (fun d => d.position == 0) = [] :=
    List.filter_eq_nil_iff.mpr fun d hd => by
      rw [beq_iff_eq]
      exact position_ne_zero_of_mem_objectKeys hd
  have hwhole' := filter_declareUnreserved_of_none .wholeModule [] hwhole
  have hmodel' := filter_declare_of_none .classDef [] hmodel
  rw [List.nil_append, List.length_nil] at hwhole' hmodel'
  rw [CommonJs.declarations, List.filter_append, List.filter_append, List.filter_append, hkeys,
    hwhole', hmodel', List.append_nil, List.append_nil, List.append_nil]

/-- **What is declared at the front of a text is declared first.** -/
theorem declarationsOf_eq_append (hwhole : CommonJs.wholeForm text = none)
    (hmodel : CommonJs.modelForm text = none) : ∃ later, declarationsOf text =
      EsModule.declaredAt 0 text ++ (CommonJs.members text).filter (fun d => d.position == 0) ++
        later := by
  refine ⟨inTextOrder ((EsModule.declarations text ++ CommonJs.declarations text).filter
    fun d => d.position != 0), ?_⟩
  rw [declarationsOf, inTextOrder_eq_append, List.filter_append,
    CommonJs.filter_declarations_front hwhole hmodel, EsModule.declaredAt]

end Source

end ExportAtlas
