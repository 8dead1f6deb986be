import ExportAtlas.Proofs.Source.Blanking
import ExportAtlas.Proofs.Source.Program
/-!
# Texts that are read at the front

A text whose front is one statement falls into two parts. The forms find what
they find at its first place, then nothing up to the end of the front
(`Throughout`, `Unread`), and from there on what they find in the rest by
itself (`occurrences_append`, `ReadsApart`). So the exports of the text are
those that the first place declares, and the rest after them
(`extract_of_front`).

Words, names and texts that speak of no export meet the condition by
themselves (`Mute.throughout_of_calm`, `Mute.throughout_of_closes`,
`throughout_of_speaksOfNone`).
-/

namespace ExportAtlas

namespace Source

open Text (isBlank isWord)

variable {α : Type} {scan : Scan α} {P : List Char → Prop} {c : Char}
  {a a' b m s source : List Char}

/-! ## What a scan finds at the front -/

/-- What a scan finds at the front of a text, with its place. -/
def atFront (scan : Scan α) (s : List Char) : List (Nat × α) :=
  ((scan s).map fun r => (0, r.1)).toList

/-- **A scan that is silent between the front and the part `b`** finds what it
finds at the front, if that ends in front of `b`, and what it finds in
`b`. -/
theorem occurrences_append (hsilent : SilentOn scan a b)
    (hends : b ≠ [] → endsInWord false (c :: a) = false)
    (hstops : ∀ r, scan (c :: (a ++ b)) = some r → b.length ≤ r.2.length) :
    occurrences scan (c :: (a ++ b)) = atFront scan (c :: (a ++ b)) ++
      (occurrences scan b).map (Prod.map (· + (a.length + 1)) id) := by
  have hbehind : ∀ skip ≤ a.length, occurrencesFrom scan (isWord c) skip 1 (a ++ b) =
      (occurrences scan b).map (Prod.map (· + (a.length + 1)) id) := by
    intro skip hskip
    rw [occurrencesFrom_passed hskip hsilent]
    cases b with
    | nil => rfl
    | cons d b =>
      have hword : endsInWord (isWord c) a = false := hends (List.cons_ne_nil d b)
      rw [hword, occurrences, ← occurrencesFrom_add, Nat.zero_add, Nat.add_comm 1]
  rw [occurrences, occurrencesFrom, if_neg Bool.false_ne_true, atFront]
  cases hscan : scan (c :: (a ++ b)) with
  | none => exact hbehind 0 (Nat.zero_le _)
  | some r =>
    have hle := hstops r hscan
    refine congrArg ((0, r.1) :: ·) (hbehind _ ?_)
    rw [List.length_append]
    omega

theorem fst_of_mem_atFront {r : Nat × α} (h : r ∈ atFront scan s) : r.1 = 0 := by
  rw [atFront, Option.mem_toList, Option.map_eq_some_iff] at h
  obtain ⟨-, -, rfl⟩ := h
  rfl

/-- Where nothing is found at the front, what is found stands behind it. -/
theorem fst_ne_zero_of_mem_occurrences {r : Nat × α} (hfront : scan s = none)
    (h : r ∈ occurrences scan s) : r.1 ≠ 0 := by
  obtain ⟨before, rest, left, rfl, hp, hscan⟩ := mem_occurrences h
  intro hzero
  rw [hzero] at hp
  rw [List.length_eq_zero_iff.mp hp.symm, List.nil_append, hscan] at hfront
  cases hfront

/-! ## Stretches of a text -/

/-- A statement holds of the text from each place of a stretch `a` on, which
`b` follows. -/
def Throughout (P : List Char → Prop) (a b : List Char) : Prop :=
  ∀ x y, a = x ++ y → y ≠ [] → P (y ++ b)

namespace Throughout

theorem nil : Throughout P [] b := fun _ _ heq hy =>
  absurd (List.append_eq_nil_iff.mp heq.symm).2 hy

theorem append (ha : Throughout P a (a' ++ b)) (ha' : Throughout P a' b) :
    Throughout P (a ++ a') b := by
  intro x y heq hy
  rcases List.append_eq_append_iff.mp heq with ⟨m, hx, hm⟩ | ⟨m, hx, rfl⟩
  · exact ha' m y hm hy
  · by_cases hnil : m = []
    · rw [hnil, List.nil_append] at hy ⊢
      exact ha' [] a' rfl hy
    · rw [List.append_assoc]
      exact ha x m hx hnil

theorem cons (hc : P (c :: (a ++ b))) (ha : Throughout P a b) : Throughout P (c :: a) b := by
  intro x y heq hy
  cases x with
  | nil =>
    rw [← show c :: a = y from heq]
    exact hc
  | cons d x => exact ha x y (List.cons.inj heq).2 hy

theorem mono {Q : List Char → Prop} (h : Throughout P a b) (hPQ : ∀ s, P s → Q s) :
    Throughout Q a b := fun x y heq hy => hPQ _ (h x y heq hy)

/-- Where a form is not read it is silent. -/
theorem silentOn (h : Throughout P a b) (hP : ∀ s, P s → scan s = none) : SilentOn scan a b :=
  h.mono hP

end Throughout

/-! ## Texts that no form reads -/

/-- The forms of a default export apart, none reads the front of a text. -/
structure OnlyDefaults (s : List Char) : Prop where
  function : EsModule.functionForm s = none
  constant : EsModule.constantForm s = none
  type : EsModule.typeForm "type" s = none
  interface : EsModule.typeForm "interface" s = none
  member : CommonJs.memberForm s = none
  object : CommonJs.objectForm s = none
  model : CommonJs.modelForm s = none

/-- No form reads the front of a text, but perhaps that of an alias. -/
structure Unread (s : List Char) : Prop extends OnlyDefaults s where
  classDef : EsModule.classForm s = none
  defaultFunction : EsModule.defaultFunctionForm s = none
  defaultName : EsModule.defaultNameForm s = none
  wholeModule : CommonJs.wholeForm s = none

/-- No form reads the front of a text. -/
structure Mute (s : List Char) : Prop extends Unread s where
  defaultAlias : EsModule.defaultAliasForm s = none

/-- A text is mute if it opens no export and no member, module or model. -/
theorem Mute.of_heads (hexport : opensExport s = false) (hmember : CommonJs.memberForm s = none)
    (hmodule : CommonJs.moduleHead s = none) (hmodel : CommonJs.modelForm s = none) : Mute s where
  function := functionForm_of_not_opens hexport
  constant := constantForm_of_not_opens hexport
  type := typeForm_of_not_opens "type" hexport rfl
  interface := typeForm_of_not_opens "interface" hexport rfl
  classDef := classForm_of_not_opens hexport
  defaultFunction := defaultFunctionForm_of_not_opens hexport
  defaultName := defaultNameForm_of_not_opens hexport
  member := hmember
  object := by
    change (CommonJs.moduleHead s).bind _ = none
    rw [hmodule]
    rfl
  wholeModule := by
    change (CommonJs.moduleHead s).bind _ = none
    rw [hmodule]
    rfl
  model := hmodel
  defaultAlias := defaultAliasForm_of_not_opens hexport

theorem Mute.of_not_opens (h : opens s = false) (h' : opensMember s = false) : Mute s :=
  .of_heads (opensExport_of_opens h) (memberForm_of_not_opens h')
    (moduleHead_of_not_expect (expect_module_of_opens h))
    (modelForm_of_not_expect (expect_mongoose_of_opens h))

/-! ## Words and names -/

/-- A stretch in which no phrase begins is mute throughout. -/
theorem Mute.throughout_of_calm (h : calm opens a b = true) (h' : calm opensMember a b = true) :
    Throughout Mute a b := by
  induction a with
  | nil => exact .nil
  | cons c a ih =>
    rw [calm, Bool.and_eq_true, Bool.not_eq_true'] at h h'
    exact .cons (.of_not_opens h.1 h'.1) (ih h.2 h'.2)

/-- So is a name that is closed. -/
theorem Mute.throughout_of_closes (hm : ∀ c ∈ m, isPlainPart c = true) (hb : closes b = true) :
    Throughout Mute m b :=
  .throughout_of_calm (calm_plain isPhrase_opens hm hb) (calm_plain isPhrase_opensMember hm hb)

/-- In a name that is not closed, something may be read of an `export` at its
end. -/
theorem throughout_of_endsName (hP : ∀ s, Mute s → P s) (hm : ∀ c ∈ m, isPlainPart c = true)
    (hb : endsName b = true) (hend : P ("export".toList ++ b)) : Throughout P m b := by
  rintro x y rfl -
  have hy : ∀ c ∈ y, isPlainPart c = true := fun c hc => hm c (List.mem_append_right x hc)
  by_cases hne : y = "export".toList
  · rw [hne]
    exact hend
  · exact hP _ (.of_not_opens (opens_of_endsName hy hb hne) (opensMember_of_endsName hy hb))

/-! ## Passages -/

/-- A text speaks of no export and of no model. -/
def SpeaksOfNone (s : List Char) : Prop :=
  ¬ "export".toList <:+: s ∧ ¬ "mongoose.".toList <:+: s

theorem SpeaksOfNone.mono (h : SpeaksOfNone s) (hm : m <:+: s) : SpeaksOfNone m :=
  ⟨fun hexport => h.1 (hexport.trans hm), fun hmodel => h.2 (hmodel.trans hm)⟩

theorem Mute.of_speaksOfNone (h : SpeaksOfNone s) : Mute s := by
  have hexpect : ∀ (k t : List Char), "export".toList <:+: k → t <:+: s → expect k t = none := by
    intro k t hk ht
    cases hread : expect k t with
    | none => rfl
    | some r =>
      rw [expect_eq_some] at hread
      exact absurd ((hk.trans ⟨[], r, hread.symm⟩).trans ht) h.1
  have hmodel : expect "mongoose.".toList s = none := by
    cases hread : expect "mongoose.".toList s with
    | none => rfl
    | some r =>
      rw [expect_eq_some] at hread
      exact absurd ⟨[], r, hread.symm⟩ h.2
  refine .of_heads ?_ ?_ ?_ (modelForm_of_not_expect (by rw [hmodel]; rfl))
  · rw [opensExport, hexpect _ s List.infix_rfl List.infix_rfl]
  · change (expect "exports.".toList (optionally (expect "module.".toList) s)).bind _ = none
    rw [hexpect "exports.".toList _ ⟨[], "s.".toList, rfl⟩ ((leaves_expect _).optionally s).isInfix]
    rfl
  · change (expect "module.exports".toList s).bind _ = none
    rw [hexpect "module.exports".toList s ⟨"module.".toList, "s".toList, rfl⟩ List.infix_rfl]
    rfl

/-- **A passage that speaks of no export is mute throughout**, at the end of a
text. -/
theorem throughout_of_speaksOfNone (h : SpeaksOfNone s) : Throughout Mute s [] := by
  rintro x y rfl -
  rw [List.append_nil]
  exact .of_speaksOfNone (h.mono (List.suffix_append x y).isInfix)

/-! ## The declarations of the two parts -/

/-- A reading of the text `c :: a ++ b` falls into what is declared at its
first place, and what is read of `b`. -/
structure ReadsApart (c : Char) (a b : List Char) (front : List Declaration)
    (read : List Char → List Declaration) : Prop where
  front : (read (c :: (a ++ b))).filter (fun d => d.position == 0) = front
  inside : (read (c :: (a ++ b))).filter (fun d => d.position != 0) =
    (read b).map (.moved (· + (a.length + 1)))

namespace ReadsApart

variable {front front' : List Declaration} {read read' : List Char → List Declaration}
  {form : Scan α}

theorem of_eq
    (h : read (c :: (a ++ b)) = front ++ (read b).map (.moved (· + (a.length + 1))))
    (hfront : ∀ d ∈ front, d.position = 0) : ReadsApart c a b front read := by
  have hinside : ∀ d ∈ (read b).map (Declaration.moved (· + (a.length + 1))),
      d.position ≠ 0 := by
    intro d hd
    obtain ⟨x, -, rfl⟩ := List.mem_map.mp hd
    exact Nat.succ_ne_zero _
  constructor
  · rw [h, List.filter_append, List.filter_eq_self.mpr fun d hd => beq_iff_eq.mpr (hfront d hd),
      List.filter_eq_nil_iff.mpr fun d hd => by simpa using hinside d hd, List.append_nil]
  · rw [h, List.filter_append, List.filter_eq_nil_iff.mpr fun d hd => by simpa using hfront d hd,
      List.filter_eq_self.mpr fun d hd => bne_iff_ne.mpr (hinside d hd), List.nil_append]

theorem append (h : ReadsApart c a b front read) (h' : ReadsApart c a b front' read') :
    ReadsApart c a b (front ++ front') fun s => read s ++ read' s := by
  constructor
  · rw [List.filter_append, h.front, h'.front]
  · rw [List.filter_append, h.inside, h'.inside, List.map_append]

/-- What is read at each place where a form succeeds. -/
theorem of_form (h : occurrences form (c :: (a ++ b)) = atFront form (c :: (a ++ b)) ++
      (occurrences form b).map (Prod.map (· + (a.length + 1)) id))
    (declared : Nat × α → List Declaration)
    (hmoved : ∀ (place : Nat → Nat) p x,
      declared (place p, x) = (declared (p, x)).map (.moved place))
    (hplace : ∀ x, ∀ d ∈ declared x, d.position = x.1) :
    ReadsApart c a b ((atFront form (c :: (a ++ b))).flatMap declared)
      fun s => (occurrences form s).flatMap declared := by
  refine of_eq ?_ fun d hd => ?_
  · rw [h, List.flatMap_append, List.flatMap_map, List.map_flatMap]
    exact congrArg (fun g => _ ++ (occurrences form b).flatMap g)
      (funext fun x => hmoved (· + (a.length + 1)) x.1 x.2)
  · obtain ⟨x, hx, hdx⟩ := List.mem_flatMap.mp hd
    rw [hplace x d hdx, fst_of_mem_atFront hx]

theorem declare {form : Scan (List Char)} (role : Role)
    (h : occurrences form (c :: (a ++ b)) = atFront form (c :: (a ++ b)) ++
      (occurrences form b).map (Prod.map (· + (a.length + 1)) id)) :
    ReadsApart c a b (declare role (atFront form (c :: (a ++ b))))
      fun s => declare role (occurrences form s) := by
  simp only [Source.declare, List.map_eq_flatMap]
  refine of_form h _ (fun place p x => rfl) fun x d hd => ?_
  rw [List.mem_singleton.mp hd]

/-- What leaves declarations out by their roles and names. -/
theorem filter (h : ReadsApart c a b front read) {p : Declaration → Bool}
    (hp : ∀ place d, p (.moved place d) = p d) :
    ReadsApart c a b (front.filter p) fun s => (read s).filter p := by
  constructor
  · rw [filter_swap, h.front]
  · rw [filter_swap, h.inside, List.filter_map]
    exact congrArg _ (List.filter_congr fun d _ => hp _ d)

/-- Where nothing is found at the front, and a finding makes one declaration or
none. -/
theorem of_silent (h : occurrences form (c :: (a ++ b)) =
      (occurrences form b).map (Prod.map (· + (a.length + 1)) id))
    (declared? : Nat × α → Option Declaration)
    (hmoved : ∀ (place : Nat → Nat) p x,
      declared? (place p, x) = (declared? (p, x)).map (.moved place)) :
    ReadsApart c a b [] fun s => (occurrences form s).filterMap declared? := by
  refine of_eq ?_ (by simp)
  rw [h, List.filterMap_map, List.nil_append, List.map_filterMap]
  exact List.filterMap_congr fun x _ => hmoved (· + (a.length + 1)) x.1 x.2

theorem declare_of_silent {form : Scan (List Char)} (role : Role)
    (h : occurrences form (c :: (a ++ b)) =
      (occurrences form b).map (Prod.map (· + (a.length + 1)) id)) :
    ReadsApart c a b [] fun s => Source.declare role (occurrences form s) := by
  simp only [Source.declare, ← List.filterMap_eq_map]
  exact of_silent h _ fun _ _ _ => rfl

end ReadsApart

/-! ## The declarations of the front -/

/-- What the other forms read at the front of a text ends in front of its part
`b`. -/
structure StopsAt (s b : List Char) : Prop where
  classDef : ∀ r, EsModule.classForm s = some r → b.length ≤ r.2.length
  defaultFunction : ∀ r, EsModule.defaultFunctionForm s = some r → b.length ≤ r.2.length
  defaultName : ∀ r, EsModule.defaultNameForm s = some r → b.length ≤ r.2.length
  defaultAlias : ∀ r, EsModule.defaultAliasForm s = some r → b.length ≤ r.2.length
  wholeModule : ∀ r, CommonJs.wholeForm s = some r → b.length ≤ r.2.length

/-- Where the front is the whole text, everything stops at its end. -/
theorem stopsAt_nil : StopsAt s [] :=
  ⟨fun _ _ => Nat.zero_le _, fun _ _ => Nat.zero_le _, fun _ _ => Nat.zero_le _,
    fun _ _ => Nat.zero_le _, fun _ _ => Nat.zero_le _⟩

/-- The text `c :: a ++ b` is read as a default export at its first place, and
then, but for aliases, from `b` on. -/
structure ReadInParts (c : Char) (a b : List Char) : Prop where
  front : OnlyDefaults (c :: (a ++ b))
  stops : StopsAt (c :: (a ++ b)) b
  ends : b ≠ [] → endsInWord false (c :: a) = false
  behind : Throughout Unread a b

/-- What the forms of a class, a default function and a default name declare at
the front of a text. -/
def declaredAtFront (s : List Char) : List Declaration :=
  (atFront EsModule.classForm s).flatMap (fun (p, isDefault, found) =>
      ⟨p, .classDef, String.ofList found⟩ ::
        if isDefault then [⟨p, .defaultExport, String.ofList found⟩] else []) ++
    declare .defaultExport (atFront EsModule.defaultFunctionForm s) ++
    declareUnreserved .defaultExport (atFront EsModule.defaultNameForm s)

/-- All that an ES module declares but by an alias. -/
def unaliased (text : List Char) : List Declaration :=
  declare .function (occurrences EsModule.functionForm text) ++
  EsModule.constants text ++
  declare .type (occurrences (EsModule.typeForm "type") text) ++
  declare .interface (occurrences (EsModule.typeForm "interface") text) ++
  EsModule.classes text ++
  declare .defaultExport (occurrences EsModule.defaultFunctionForm text) ++
  declareUnreserved .defaultExport (occurrences EsModule.defaultNameForm text)

theorem declarations_eq_unaliased (text : List Char) : EsModule.declarations text =
    unaliased text ++ declare .defaultExport (occurrences EsModule.defaultAliasForm text) := rfl

theorem placed_add (k p : Nat) (items : List (List Char)) :
    CommonJs.placed (p + k) items = (CommonJs.placed p items).map (Prod.map (· + k) id) := by
  induction items generalizing p with
  | nil => rfl
  | cons item items ih =>
    rw [CommonJs.placed, CommonJs.placed, show p + k + item.length + 1 = p + item.length + 1 + k by
      omega, ih]
    rfl

namespace ReadInParts

variable (h : ReadInParts c a b)
include h

theorem occurrences_eq (hunread : ∀ s, Unread s → scan s = none)
    (hstops : ∀ r, scan (c :: (a ++ b)) = some r → b.length ≤ r.2.length) :
    occurrences scan (c :: (a ++ b)) = atFront scan (c :: (a ++ b)) ++
      (occurrences scan b).map (Prod.map (· + (a.length + 1)) id) :=
  occurrences_append (h.behind.silentOn hunread) h.ends hstops

theorem occurrences_eq_inside (hunread : ∀ s, Unread s → scan s = none)
    (hfront : scan (c :: (a ++ b)) = none) :
    occurrences scan (c :: (a ++ b)) =
      (occurrences scan b).map (Prod.map (· + (a.length + 1)) id) := by
  have hstops : ∀ r, scan (c :: (a ++ b)) = some r → b.length ≤ r.2.length := by
    rw [hfront]
    exact nofun
  rw [h.occurrences_eq hunread hstops, atFront, hfront]
  rfl

theorem constants : ReadsApart c a b [] EsModule.constants :=
  .of_silent (h.occurrences_eq_inside (fun _ hs => hs.constant) h.front.constant) _
    fun _ _ _ => by simp only [Option.map_map]; rfl

theorem classes : ReadsApart c a b
    ((atFront EsModule.classForm (c :: (a ++ b))).flatMap fun (p, isDefault, found) =>
      ⟨p, .classDef, String.ofList found⟩ ::
        if isDefault then [⟨p, .defaultExport, String.ofList found⟩] else []) EsModule.classes := by
  refine .of_form (h.occurrences_eq (fun _ hs => hs.classDef) h.stops.classDef) _
    (fun place p x => ?_) fun x d hd => ?_
  · obtain ⟨isDefault, found⟩ := x
    cases isDefault <;> rfl
  · rcases List.mem_cons.mp hd with rfl | hd
    · rfl
    · split at hd
      · rw [List.mem_singleton.mp hd]
      · cases hd

theorem members : ReadsApart c a b [] CommonJs.members := by
  refine .of_silent (h.occurrences_eq_inside (fun _ hs => hs.member) h.front.member) _
    fun _ _ _ => ?_
  dsimp only
  split_ifs <;> rfl

theorem objectKeys : ReadsApart c a b [] CommonJs.objectKeys := by
  refine .of_eq ?_ (by simp)
  rw [CommonJs.objectKeys, CommonJs.objectKeys,
    h.occurrences_eq_inside (fun _ hs => hs.object) h.front.object, List.head?_map]
  cases (occurrences CommonJs.objectForm b).head? with
  | none => rfl
  | some x =>
    obtain ⟨p, offset, body⟩ := x
    dsimp only [Option.map_some, Prod.map_apply, id_eq]
    rw [Nat.add_right_comm, placed_add, List.filterMap_map, List.nil_append, List.map_filterMap]
    refine List.filterMap_congr fun x _ => ?_
    dsimp only [Function.comp_apply, Prod.map_fst, Prod.map_snd, id_eq]
    split <;> rfl

/-- **What an ES module declares** but by an alias. -/
theorem unaliased : ReadsApart c a b (declaredAtFront (c :: (a ++ b))) unaliased :=
  ((((((ReadsApart.declare_of_silent .function
      (h.occurrences_eq_inside (fun _ hs => hs.function) h.front.function)).append
    h.constants).append
    (.declare_of_silent .type
      (h.occurrences_eq_inside (fun _ hs => hs.type) h.front.type))).append
    (.declare_of_silent .interface
      (h.occurrences_eq_inside (fun _ hs => hs.interface) h.front.interface))).append
    h.classes).append
    (.declare .defaultExport
      (h.occurrences_eq (fun _ hs => hs.defaultFunction) h.stops.defaultFunction))).append
    ((ReadsApart.declare .defaultExport
      (h.occurrences_eq (fun _ hs => hs.defaultName) h.stops.defaultName)).filter fun _ _ => rfl)

/-- **What a CommonJS module declares.** -/
theorem commonJs : ReadsApart c a b
    (declareUnreserved .wholeModule (atFront CommonJs.wholeForm (c :: (a ++ b))))
    CommonJs.declarations := by
  have hwhole : ReadsApart c a b
      (declareUnreserved .wholeModule (atFront CommonJs.wholeForm (c :: (a ++ b))))
      fun s => declareUnreserved .wholeModule (occurrences CommonJs.wholeForm s) :=
    (ReadsApart.declare .wholeModule
      (h.occurrences_eq (fun _ hs => hs.wholeModule) h.stops.wholeModule)).filter fun _ _ => rfl
  have hread := ((h.members.append h.objectKeys).append hwhole).append
    (.declare_of_silent .classDef (h.occurrences_eq_inside (fun _ hs => hs.model) h.front.model))
  rwa [List.append_nil] at hread

end ReadInParts

/-! ## The exports -/

/-- **The declarations of a text whose two parts are read apart** are those of
its front, and then those of the rest. -/
theorem declarationsOf_of_readsApart {front : List Declaration}
    (h : ReadsApart c a b front fun s => EsModule.declarations s ++ CommonJs.declarations s) :
    declarationsOf (c :: (a ++ b)) =
      front ++ (declarationsOf b).map (.moved (· + (a.length + 1))) := by
  rw [declarationsOf, inTextOrder_eq_append, h.front, h.inside,
    inTextOrder_moved fun d _ e _ hlt => Nat.add_lt_add_right hlt _, declarationsOf]

section Mute

variable (hfront : OnlyDefaults (c :: (a ++ b))) (hstops : StopsAt (c :: (a ++ b)) b)
  (hends : b ≠ [] → endsInWord false (c :: a) = false) (hbehind : Throughout Mute a b)
include hfront hstops hends hbehind

theorem declarationsOf_of_parts :
    declarationsOf (c :: (a ++ b)) = declaredAtFront (c :: (a ++ b)) ++
      declare .defaultExport (atFront EsModule.defaultAliasForm (c :: (a ++ b))) ++
      declareUnreserved .wholeModule (atFront CommonJs.wholeForm (c :: (a ++ b))) ++
      (declarationsOf b).map (.moved (· + (a.length + 1))) := by
  have hparts : ReadInParts c a b := ⟨hfront, hstops, hends, hbehind.mono fun _ h => h.toUnread⟩
  have haliases := ReadsApart.declare .defaultExport (occurrences_append
    (hbehind.silentOn fun _ h => h.defaultAlias) hends hstops.defaultAlias)
  exact declarationsOf_of_readsApart ((hparts.unaliased.append haliases).append hparts.commonJs)

/-- **The exports of a text in two parts.** -/
theorem extract_of_parts (hsource : blankComments source = c :: (a ++ b)) :
    extract source = exportsOf (declaredAtFront (c :: (a ++ b)) ++
      declare .defaultExport (atFront EsModule.defaultAliasForm (c :: (a ++ b))) ++
      declareUnreserved .wholeModule (atFront CommonJs.wholeForm (c :: (a ++ b))) ++
      declarationsOf b) := by
  rw [extract, hsource, declarationsOf_of_parts hfront hstops hends hbehind, exportsOf_append_moved]

end Mute

theorem declarationsOf_nil : declarationsOf [] = [] := List.mergeSort_nil

/-- Nothing is declared where nothing is read. -/
theorem declarationsOf_eq_nil (h : Throughout Mute s []) : declarationsOf s = [] := by
  cases s with
  | nil => exact declarationsOf_nil
  | cons c a =>
    have hmute : Mute (c :: a) := by
      have := h [] (c :: a) rfl (List.cons_ne_nil c a)
      rwa [List.append_nil] at this
    have hbehind : Throughout Mute a [] := fun x y heq hy =>
      h (c :: x) y (by rw [heq]; rfl) hy
    have hdeclared := declarationsOf_of_parts (c := c) (a := a) (b := [])
      (by rw [List.append_nil]; exact hmute.toOnlyDefaults) stopsAt_nil (absurd rfl) hbehind
    rw [List.append_nil, declaredAtFront, atFront, atFront, atFront, atFront, atFront,
      hmute.classDef, hmute.defaultFunction, hmute.defaultName, hmute.defaultAlias,
      hmute.wholeModule, declarationsOf_nil] at hdeclared
    exact hdeclared

/-- The front may be the whole text. -/
theorem extract_of_front (hsource : blankComments source = c :: a) (hfront : OnlyDefaults (c :: a))
    (hbehind : Throughout Mute a []) :
    extract source = exportsOf (declaredAtFront (c :: a) ++
      declare .defaultExport (atFront EsModule.defaultAliasForm (c :: a)) ++
      declareUnreserved .wholeModule (atFront CommonJs.wholeForm (c :: a))) := by
  have hnil : a ++ [] = a := List.append_nil a
  have hextract := extract_of_parts (b := []) (by rwa [hnil]) stopsAt_nil (absurd rfl) hbehind
    (by rwa [hnil])
  rwa [hnil, declarationsOf_nil, List.append_nil] at hextract

/-- **Behind a default export aliases do not matter**, even one that begins in
the front and ends in the rest. -/
theorem extract_of_front_aliases (hsource : blankComments source = c :: (a ++ b))
    (hparts : ReadInParts c a b) (halias : EsModule.defaultAliasForm (c :: (a ++ b)) = none)
    (hwhole : CommonJs.wholeForm (c :: (a ++ b)) = none)
    (hdefault : ∃ d ∈ declaredAtFront (c :: (a ++ b)), d.role = .defaultExport) :
    extract source = exportsOf (declaredAtFront (c :: (a ++ b)) ++ declarationsOf b) := by
  have hcommonJs : ReadsApart c a b [] CommonJs.declarations := by
    have hread := hparts.commonJs
    rwa [atFront, hwhole] at hread
  have hread := hparts.unaliased.append hcommonJs
  rw [List.append_nil] at hread
  have hkept := hread.filter (p := (·.role != .defaultExport)) fun _ _ => rfl
  -- where default exports are left out there are no aliases
  have hunaliased : ∀ s, (EsModule.declarations s ++ CommonJs.declarations s).filter
      (·.role != .defaultExport) =
        (unaliased s ++ CommonJs.declarations s).filter (·.role != .defaultExport) := by
    intro s
    have hnone : (declare .defaultExport (occurrences EsModule.defaultAliasForm s)).filter
        (·.role != .defaultExport) = [] := by
      refine List.filter_eq_nil_iff.mpr fun d hd => ?_
      obtain ⟨r, -, rfl⟩ := List.mem_map.mp hd
      exact Bool.false_ne_true
    rw [declarations_eq_unaliased, List.filter_append, List.filter_append, hnone, List.append_nil,
      List.filter_append]
  -- nor is there one at the first place
  have hfront : (EsModule.declarations (c :: (a ++ b)) ++
      CommonJs.declarations (c :: (a ++ b))).filter (fun d => d.position == 0) =
        declaredAtFront (c :: (a ++ b)) := by
    have hnone : (declare .defaultExport
        (occurrences EsModule.defaultAliasForm (c :: (a ++ b)))).filter
          (fun d => d.position == 0) = [] := by
      refine List.filter_eq_nil_iff.mpr fun d hd => ?_
      obtain ⟨r, hr, rfl⟩ := List.mem_map.mp hd
      rw [beq_iff_eq]
      exact fst_ne_zero_of_mem_occurrences halias hr
    rw [declarations_eq_unaliased, List.filter_append, List.filter_append, hnone, List.append_nil,
      hparts.unaliased.front, hcommonJs.front, List.append_nil]
  rw [extract, hsource, declarationsOf, inTextOrder_eq_append, hfront,
    exportsOf_append_filter hdefault, filter_inTextOrder_comm, filter_swap, hunaliased,
    hkept.inside, inTextOrder_moved fun d _ e _ hlt => Nat.add_lt_add_right hlt _,
    exportsOf_append_moved, ← hunaliased, ← filter_inTextOrder_comm,
    ← exportsOf_append_filter hdefault, declarationsOf]

end Source

end ExportAtlas
