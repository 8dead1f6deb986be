import ExportAtlas.Proofs.Source.Gaps
/-!
# Wide gaps and narrow ones

How wide the gaps of a text are does not bear on its exports
(`exportsOf_declarationsOf_narrowed`). The walk of a scan over a text and the
one over the narrowed text stay in step (`InStep`), so a form that finds the
same in both succeeds at places that correspond to each other
(`occurrences_narrowed`). The declarations of the narrowed text are then those
of the text, each at its own place there, and none stands inside a gap
(`DeclaresNarrowed`); among such places the order stays (`narrowedPlace_lt`).
-/

namespace ExportAtlas

namespace Source

open Text (isWord)

variable {α : Type} {text : List Char}

/-! ## Places -/

/-- A place of a text that does not lie inside a gap. -/
def NotInGap (text : List Char) (place : Nat) : Prop :=
  ∃ a b, text = a ++ b ∧ place = a.length ∧ Apart a b

/-- **Narrowing keeps the order of the places** that do not lie inside
gaps. -/
theorem narrowedPlace_lt {p q : Nat} (hp : NotInGap text p) (hq : NotInGap text q) (h : p < q) :
    narrowedPlace text p < narrowedPlace text q := by
  obtain ⟨a, b, rfl, rfl, hab⟩ := hp
  obtain ⟨a', b', heq, rfl, hab'⟩ := hq
  obtain ⟨m, rfl, rfl⟩ : ∃ m, a' = a ++ m ∧ b = m ++ b' := by
    rcases List.append_eq_append_iff.mp heq with ⟨m, ha', hb⟩ | ⟨m, ha, -⟩
    · exact ⟨m, ha', hb⟩
    · rw [ha, List.length_append] at h
      omega
  have hm : m ≠ [] := by
    rintro rfl
    rw [List.append_nil] at h
    exact Nat.lt_irrefl _ h
  have hmb : Apart m b' := by
    rwa [Apart, List.getLast?_append_of_ne_nil a hm] at hab'
  -- the text narrows in three parts, and the middle one is not empty
  have hparts := narrowed_append hab
  rw [narrowed_append hmb, ← List.append_assoc, narrowed_append hab', ← List.append_assoc,
    List.append_left_inj] at hparts
  have hpos := List.length_pos_iff.mpr (mt narrowed_eq_nil_iff.mp hm)
  rw [narrowedPlace_append, heq, narrowedPlace_append, hparts, List.length_append]
  omega

/-! ## Scanning a narrowed text -/

/-- A walk over a text and one over the narrowed text are in step: the first
is at `s` and has passed `a`, the second is at the place `q`. Whether a word
ends in front of them (`w`, `w'`) is the same for both, but where a space
follows. -/
structure InStep (text a s : List Char) (w w' : Bool) (q : Nat) : Prop where
  text_eq : text = a ++ s
  place : q + (narrowed s).length = (narrowed text).length
  word : s.head? = some ' ' ∨ w' = w

namespace InStep

variable {a b m m' s : List Char} {c : Char} {w w' : Bool} {q : Nat}

/-- A space that narrowing leaves out is passed by the first walk alone. -/
theorem leftOut (h : InStep text a (' ' :: s) w w' q) (hs : s.head? = some ' ') :
    InStep text (a ++ [' ']) s false w' q := by
  refine ⟨by rw [h.text_eq, ← List.append_cons], ?_, .inl hs⟩
  rw [← h.place, narrowed, if_pos ⟨rfl, hs⟩]

/-- Any other character is passed by both. -/
theorem next (h : InStep text a (c :: s) w w' q) (hc : ¬ (c = ' ' ∧ s.head? = some ' ')) :
    InStep text (a ++ [c]) s (isWord c) (isWord c) (q + 1) := by
  refine ⟨by rw [h.text_eq, ← List.append_cons], ?_, .inr rfl⟩
  rw [← h.place, narrowed_cons hc, List.length_cons, Nat.add_assoc, Nat.add_comm 1]

/-- And so is a part that is passed at once. -/
theorem skip (h : InStep text a (m ++ b) w w q) (hm : narrowed (m ++ b) = m' ++ narrowed b)
    (hends : b.head? = some ' ' ∨ ∀ w, endsInWord w m' = endsInWord w m) :
    InStep text (a ++ m) b (endsInWord w m) (endsInWord w m') (q + m'.length) := by
  refine ⟨by rw [h.text_eq, List.append_assoc], ?_, hends.imp_right fun he => he w⟩
  rw [← h.place, hm, List.length_append, Nat.add_assoc]

theorem narrowedPlace_eq (h : InStep text a (c :: s) w w' q) (hc : c ≠ ' ') :
    narrowedPlace text a.length = q := by
  have hplace := h.place
  rw [h.text_eq, narrowed_append (apart_cons hc a s), List.length_append] at hplace
  rw [h.text_eq, narrowedPlace_append]
  omega

end InStep

/-- A form finds in a narrowed text what it finds in the text, as `view` sees
it from there, and it does not begin with a space. -/
structure FormNarrowed (view : List Char → α → α) (form : Scan α) : Prop where
  narrowed : ∀ s, form (narrowed s) = (form s).map fun x => (view s x.1, narrowed x.2)
  leaves : ∀ s x, form s = some x → x.2 <:+ s
  space : ∀ s, form (' ' :: s) = none

section Scanning

variable {view : List Char → α → α} {form : Scan α}

/-- From where a form has succeeded the walk goes on with what is left. -/
theorem exists_occurrencesFrom_left {c : Char} {s left : List Char} (hc : c ≠ ' ')
    (h : left <:+ c :: s) : ∃ a b, s = a ++ b ∧ s.length - left.length = a.length ∧
      (narrowed s).length - (narrowed left).length = (narrowed s).length - (narrowed b).length := by
  rcases List.suffix_cons_iff.mp h with rfl | ⟨a, rfl⟩
  · refine ⟨[], s, rfl, ?_, ?_⟩
    · rw [List.length_cons, List.length_nil]
      omega
    · rw [narrowed_cons_of_ne hc, List.length_cons]
      omega
  · exact ⟨a, left, rfl, by rw [List.length_append]; omega, rfl⟩

/-- **Walks in step find the same.** -/
theorem occurrencesFrom_narrowed (h : FormNarrowed view form) {a s : List Char} {w w' : Bool}
    {q : Nat} (hstep : InStep text a s w w' q) :
    occurrencesFrom form w' 0 q (narrowed s) =
      (occurrencesFrom form w 0 a.length s).map fun x =>
        (narrowedPlace text x.1, view (text.drop x.1) x.2) := by
  induction hn : s.length using Nat.strong_induction_on generalizing a s w w' q with
  | _ n ih =>
  cases s with
  | nil => rfl
  | cons c s =>
    rw [List.length_cons] at hn
    by_cases hout : c = ' ' ∧ s.head? = some ' '
    · obtain ⟨rfl, hs⟩ := hout
      have hlater := ih s.length (by omega) (hstep.leftOut hs) rfl
      rw [List.length_append, List.length_singleton] at hlater
      rw [narrowed, if_pos ⟨rfl, hs⟩, occurrencesFrom, h.space, ite_self]
      exact hlater
    · -- behind a part `m` that is passed at once the walks are in step again
      have hlater : ∀ m b, s = m ++ b →
          occurrencesFrom form (isWord c) ((narrowed s).length - (narrowed b).length) (q + 1)
            (narrowed s) = (occurrencesFrom form (isWord c) m.length (a.length + 1) s).map
              fun x => (narrowedPlace text x.1, view (text.drop x.1) x.2) := by
        rintro m b rfl
        obtain ⟨m', hm, hends⟩ := exists_narrowed_append m b
        have hbehind := (hstep.next hout).skip hm hends
        rw [List.length_append] at hn
        have hfound := ih b.length (by omega) hbehind rfl
        rw [List.length_append, List.length_append, List.length_singleton] at hfound
        rw [hm, List.length_append, Nat.add_sub_cancel, occurrencesFrom_skip,
          occurrencesFrom_skip, hfound]
      have hnothing := hlater [] s rfl
      rw [Nat.sub_self, List.length_nil] at hnothing
      rw [narrowed_cons hout, occurrencesFrom, occurrencesFrom, ← narrowed_cons hout, h.narrowed]
      by_cases hc : c = ' '
      · rw [hc, h.space, Option.map_none, ite_self, ite_self, ← hc]
        exact hnothing
      · obtain rfl : w' = w := hstep.word.resolve_left fun hhead => hc (Option.some.inj hhead)
        have hdrop : text.drop a.length = c :: s := by rw [hstep.text_eq, List.drop_left]
        cases w' with
        | true => exact hnothing
        | false =>
          cases hform : form (c :: s) with
          | none => exact hnothing
          | some x =>
            obtain ⟨m, b, hs, hskip, hskip'⟩ :=
              exists_occurrencesFrom_left hc (h.leaves _ x hform)
            simp only [Bool.false_eq_true, if_false, Option.map_some, List.map_cons,
              hstep.narrowedPlace_eq hc, hdrop, hskip, hskip', hlater m b hs]

/-- **A form succeeds in a narrowed text where it does in the text**, and
finds the same. -/
theorem occurrences_narrowed (h : FormNarrowed view form) (text : List Char) :
    occurrences form (narrowed text) = (occurrences form text).map fun x =>
      (narrowedPlace text x.1, view (text.drop x.1) x.2) :=
  occurrencesFrom_narrowed h ⟨(List.nil_append text).symm, Nat.zero_add _, .inr rfl⟩

/-- And where it does is not inside a gap. -/
theorem notInGap_of_mem_occurrences (h : FormNarrowed view form) {x : Nat × α}
    (hx : x ∈ occurrences form text) : NotInGap text x.1 := by
  obtain ⟨a, b, left, htext, hp, hform⟩ := mem_occurrences hx
  refine ⟨a, b, htext, hp, .inr fun hb => ?_⟩
  obtain ⟨s, rfl⟩ := List.head?_eq_some_iff.mp hb
  rw [h.space] at hform
  cases hform

end Scanning

/-! ## Declarations -/

/-- A declaration at another place. -/
def Declaration.moved (place : Nat → Nat) (d : Declaration) : Declaration :=
  { d with position := place d.position }

/-- The declarations of a narrowed text are those of the text, each at its
place there, and none stands inside a gap. -/
structure DeclaresNarrowed (read : List Char → List Declaration) : Prop where
  narrowed : ∀ text, read (narrowed text) = (read text).map (.moved (narrowedPlace text))
  notInGap : ∀ text, ∀ d ∈ read text, NotInGap text d.position

namespace DeclaresNarrowed

variable {read read' : List Char → List Declaration} {f : α → α} {form : Scan α}

theorem append (h : DeclaresNarrowed read) (h' : DeclaresNarrowed read') :
    DeclaresNarrowed fun text => read text ++ read' text := by
  refine ⟨fun text => ?_, fun text d hd => ?_⟩
  · rw [h.narrowed, h'.narrowed, List.map_append]
  · rcases List.mem_append.mp hd with hd | hd
    · exact h.notInGap text d hd
    · exact h'.notInGap text d hd

/-- What leaves declarations out by their roles and names. -/
theorem filter (h : DeclaresNarrowed read) {p : Declaration → Bool}
    (hp : ∀ place d, p (.moved place d) = p d) :
    DeclaresNarrowed fun text => (read text).filter p := by
  refine ⟨fun text => ?_, fun text d hd => h.notInGap text d (List.mem_filter.mp hd).1⟩
  rw [h.narrowed, List.filter_map]
  exact congrArg _ (List.filter_congr fun d _ => hp _ d)

/-- **What makes declarations of findings where these stand.** -/
theorem of_form (h : ScansNarrowed f form) (hspace : ∀ s, form (' ' :: s) = none)
    (declared : Nat × α → List Declaration)
    (hmoved : ∀ (place : Nat → Nat) p x,
      declared (place p, f x) = (declared (p, x)).map (.moved place))
    (hplace : ∀ x, ∀ d ∈ declared x, d.position = x.1) :
    DeclaresNarrowed fun text => (occurrences form text).flatMap declared := by
  have hform : FormNarrowed (fun _ => f) form := ⟨h.narrowed, h.leaves, hspace⟩
  refine ⟨fun text => ?_, fun text d hd => ?_⟩
  · rw [occurrences_narrowed hform, List.flatMap_map, List.map_flatMap]
    exact congrArg (fun g => (occurrences form text).flatMap g)
      (funext fun x => hmoved _ x.1 x.2)
  · obtain ⟨x, hx, hdx⟩ := List.mem_flatMap.mp hd
    rw [hplace x d hdx]
    exact notInGap_of_mem_occurrences hform hx

/-- The same, where each finding makes one declaration or none. -/
theorem of_form_filterMap (h : ScansNarrowed f form) (hspace : ∀ s, form (' ' :: s) = none)
    (declared? : Nat × α → Option Declaration)
    (hmoved : ∀ (place : Nat → Nat) p x,
      declared? (place p, f x) = (declared? (p, x)).map (.moved place))
    (hplace : ∀ x d, declared? x = some d → d.position = x.1) :
    DeclaresNarrowed fun text => (occurrences form text).filterMap declared? := by
  simp only [List.filterMap_eq_flatMap_toList]
  refine of_form h hspace _ (fun place p x => ?_) fun x d hd => hplace x d (by simpa using hd)
  rw [hmoved]
  cases declared? (p, x) <;> rfl

theorem declare {form : Scan (List Char)} (role : Role) (h : ScansNarrowed id form)
    (hspace : ∀ s, form (' ' :: s) = none) :
    DeclaresNarrowed fun text => declare role (occurrences form text) := by
  simp only [Source.declare, List.map_eq_flatMap]
  refine of_form h hspace _ (fun place p x => rfl) fun x d hd => ?_
  rw [List.mem_singleton.mp hd]

theorem declareUnreserved {form : Scan (List Char)} (role : Role) (h : ScansNarrowed id form)
    (hspace : ∀ s, form (' ' :: s) = none) :
    DeclaresNarrowed fun text => declareUnreserved role (occurrences form text) :=
  (declare role h hspace).filter fun _ _ => rfl

end DeclaresNarrowed

/-! ### ES modules -/

section EsModule

open EsModule

theorem opensExport_space (s : List Char) : opensExport (' ' :: s) = false := rfl

theorem constants_narrowed : DeclaresNarrowed constants := by
  refine .of_form_filterMap scans_constantForm
    (fun s => constantForm_of_not_opens (opensExport_space s)) _
    (fun place p x => ?_) fun x d hd => ?_
  · dsimp only [Prod.map_fst, Prod.map_snd]
    rw [initializer_narrowed, Option.map_map, Option.map_map]
    refine congrArg (fun g => (initializer x.2).map g) (funext fun value => ?_)
    rw [Function.comp_apply, isCallable_narrowed]
    rfl
  · obtain ⟨value, -, rfl⟩ := Option.map_eq_some_iff.mp hd
    rfl

theorem classes_narrowed : DeclaresNarrowed classes := by
  refine .of_form scans_classForm (fun s => classForm_of_not_opens (opensExport_space s)) _
    (fun place p x => ?_) fun x d hd => ?_
  · obtain ⟨isDefault, found⟩ := x
    cases isDefault <;> rfl
  · rcases List.mem_cons.mp hd with rfl | hd
    · rfl
    · split at hd
      · rw [List.mem_singleton.mp hd]
      · cases hd

theorem typeForm_narrowed (role : Role) (word : String) (hgap : ' ' ∉ word.toList)
    (hword : word.toList.head?.any Char.isAlpha = true) :
    DeclaresNarrowed fun text => declare role (occurrences (typeForm word) text) :=
  .declare role (scans_typeForm word hgap)
    fun s => typeForm_of_not_opens word (opensExport_space s) hword

theorem esModule_narrowed : DeclaresNarrowed EsModule.declarations :=
  (((((((DeclaresNarrowed.declare .function scans_functionForm
      fun s => functionForm_of_not_opens (opensExport_space s)).append
    constants_narrowed).append
    (typeForm_narrowed .type "type" (by decide) rfl)).append
    (typeForm_narrowed .interface "interface" (by decide) rfl)).append
    classes_narrowed).append
    (.declare .defaultExport scans_defaultFunctionForm
      fun s => defaultFunctionForm_of_not_opens (opensExport_space s))).append
    (.declareUnreserved .defaultExport scans_defaultNameForm
      fun s => defaultNameForm_of_not_opens (opensExport_space s))).append
    (.declare .defaultExport scans_defaultAliasForm
      fun s => defaultAliasForm_of_not_opens (opensExport_space s))

end EsModule

/-! ### CommonJS modules -/

section CommonJs

open CommonJs

theorem members_narrowed : DeclaresNarrowed members := by
  refine .of_form_filterMap scans_memberForm (fun _ => memberForm_of_not_opens rfl) _
    (fun place p x => ?_) fun x d hd => ?_
  · simp only [Prod.map_fst, Prod.map_snd, head?_narrowed, isCallableAssignment_narrowed, id_eq]
    split_ifs <;> rfl
  · dsimp only at hd
    split at hd
    · cases hd
    · split at hd
      · cases hd
        rfl
      · split at hd
        · cases hd
          rfl
        · cases hd

/-! The items of an object literal begin behind its brace and behind commas. -/

section Placed

variable {a body item rest : List Char}

theorem behind_comma (htext : text = a ++ ((item ++ ',' :: body) ++ rest)) :
    text = (a ++ (item ++ [','])) ++ (body ++ rest) ∧
      (a ++ (item ++ [','])).getLast? ≠ some ' ' ∧
      (a ++ (item ++ [','])).length = a.length + item.length + 1 := by
  refine ⟨?_, ?_, ?_⟩
  · rw [htext]
    simp only [List.append_assoc, List.cons_append, List.nil_append]
  · rw [← List.append_assoc, List.getLast?_concat]
    decide
  · rw [List.length_append, List.length_append, List.length_singleton, Nat.add_assoc]

theorem placed_narrowed (htext : text = a ++ (body ++ rest)) (ha : a.getLast? ≠ some ' ') :
    placed (narrowedPlace text a.length) (Text.splitOn ',' (narrowed body)) =
      (placed a.length (Text.splitOn ',' body)).map fun x =>
        (narrowedPlace text x.1, narrowed x.2) := by
  rw [splitOn_narrowed (by decide)]
  induction body using Text.pieces_induction ',' generalizing a with
  | last item h =>
    rw [Text.splitOn_of_notMem h]
    rfl
  | more item body h ih =>
    obtain ⟨htext', hlast, hlen⟩ := behind_comma htext
    have hplace : narrowedPlace text a.length + (narrowed item).length + 1 =
        narrowedPlace text (a.length + item.length + 1) := by
      rw [← hlen, htext', narrowedPlace_append, List.append_assoc a, narrowedPlace_append,
        narrowed_append (.inl ha), narrowed_append (apart_cons (by decide) item []),
        narrowed_singleton, List.length_append, List.length_append, List.length_singleton,
        Nat.add_assoc]
    have hlater := ih htext' hlast
    rw [hlen] at hlater
    rw [Text.splitOn_append_cons h, List.map_cons, placed, placed, List.map_cons, hplace, hlater]

theorem notInGap_of_mem_placed (htext : text = a ++ (body ++ rest)) (ha : a.getLast? ≠ some ' ')
    {x : Nat × List Char} (hx : x ∈ placed a.length (Text.splitOn ',' body)) :
    NotInGap text x.1 := by
  induction body using Text.pieces_induction ',' generalizing a with
  | last item h =>
    rw [Text.splitOn_of_notMem h, placed, placed, List.mem_singleton] at hx
    exact ⟨a, _, htext, by rw [hx], .inl ha⟩
  | more item body h ih =>
    rw [Text.splitOn_append_cons h, placed] at hx
    obtain ⟨htext', hlast, hlen⟩ := behind_comma htext
    rcases List.mem_cons.mp hx with rfl | hx
    · exact ⟨a, _, htext, rfl, .inl ha⟩
    · exact ih htext' hlast (by rwa [hlen])

end Placed

theorem form_objectForm :
    FormNarrowed (fun s x => (narrowedPlace s x.1, narrowed x.2)) objectForm :=
  ⟨objectForm_narrowed, objectForm_leaves, fun _ => objectForm_of_not_expect rfl⟩

/-- The body of an object literal stands behind its brace, and so it does in
the narrowed text. -/
theorem exists_of_head?_objectForm {p offset : Nat} {body : List Char}
    (h : (occurrences objectForm text).head? = some (p, offset, body)) :
    ∃ a rest, text = a ++ (body ++ rest) ∧ a.getLast? ≠ some ' ' ∧ p + offset = a.length ∧
      narrowedPlace text p + narrowedPlace (text.drop p) offset =
        narrowedPlace text a.length := by
  obtain ⟨a, s, left, htext, rfl, hfound⟩ := mem_occurrences (List.mem_of_mem_head? h)
  obtain ⟨head, rfl, rfl⟩ := exists_of_objectForm hfound
  have hapart : Apart a (head ++ ['{']) := by
    refine .inr fun hhead => ?_
    obtain ⟨s, hs⟩ := List.head?_eq_some_iff.mp hhead
    rw [hs, List.cons_append, form_objectForm.space] at hfound
    cases hfound
  refine ⟨a ++ (head ++ ['{']), '}' :: left, ?_, ?_, ?_, ?_⟩
  · rw [htext, List.append_assoc a]
  · rw [← List.append_assoc, List.getLast?_concat]
    decide
  · exact List.length_append.symm
  · rw [htext, List.drop_left, narrowedPlace_append, narrowedPlace_append, ← List.append_assoc,
      narrowedPlace_append, narrowed_append hapart, List.length_append]

theorem objectKeys_narrowed : DeclaresNarrowed objectKeys := by
  refine ⟨fun text => ?_, fun text d hd => ?_⟩
  · rw [objectKeys, objectKeys, occurrences_narrowed form_objectForm, List.head?_map]
    cases hhead : (occurrences objectForm text).head? with
    | none => rfl
    | some x =>
      obtain ⟨p, offset, body⟩ := x
      obtain ⟨a, rest, htext, ha, hp, hplace⟩ := exists_of_head?_objectForm hhead
      dsimp only [Option.map_some]
      rw [hplace, hp, placed_narrowed htext ha, List.filterMap_map, List.map_filterMap]
      refine List.filterMap_congr fun x _ => ?_
      dsimp only [Function.comp_apply]
      rw [keyOf_narrowed, isPlainName_narrowed]
      split
      · rename_i hplain
        rw [narrowed_of_notMem (notMem_of_isPlainName hplain)]
        rfl
      · rfl
  · rw [objectKeys] at hd
    split at hd
    · cases hd
    · rename_i p offset body hhead
      obtain ⟨a, rest, htext, ha, hp, -⟩ := exists_of_head?_objectForm hhead
      obtain ⟨x, hx, hdx⟩ := List.mem_filterMap.mp hd
      rw [hp] at hx
      dsimp only at hdx
      split at hdx
      · cases hdx
        exact notInGap_of_mem_placed htext ha hx
      · cases hdx

theorem commonJs_narrowed : DeclaresNarrowed CommonJs.declarations :=
  ((members_narrowed.append objectKeys_narrowed).append
    (.declareUnreserved .wholeModule scans_wholeForm fun _ => wholeForm_of_not_expect rfl)).append
    (.declare .classDef scans_modelForm fun _ => modelForm_of_not_expect rfl)

end CommonJs

/-! ## Exports -/

/-- Moving declarations to other places does not matter as long as they stay
in order. -/
theorem inTextOrder_moved {ds : List Declaration} {place : Nat → Nat}
    (h : ∀ d ∈ ds, ∀ e ∈ ds, d.position < e.position → place d.position < place e.position) :
    inTextOrder (ds.map (.moved place)) = (inTextOrder ds).map (.moved place) := by
  refine (List.map_mergeSort fun d hd e he => ?_).symm
  rw [decide_eq_decide]
  change d.position ≤ e.position ↔ place d.position ≤ place e.position
  rcases Nat.lt_trichotomy d.position e.position with hlt | heq | hlt
  · have := h d hd e he hlt
    omega
  · rw [heq]
    exact ⟨fun _ => Nat.le_refl _, fun _ => Nat.le_refl _⟩
  · have := h e he d hd hlt
    omega

theorem exportsOf_append_moved (ds es : List Declaration) (place : Nat → Nat) :
    exportsOf (ds ++ es.map (.moved place)) = exportsOf (ds ++ es) := by
  rw [exportsOf_eq_filed, exportsOf_eq_filed, List.map_append, List.map_append, List.map_map]
  rfl

theorem exportsOf_moved (place : Nat → Nat) (ds : List Declaration) :
    exportsOf (ds.map (.moved place)) = exportsOf ds := exportsOf_append_moved [] ds place

/-- **How wide gaps are does not bear on the exports.** The declarations of a
narrowed text make the exports that those of the text make. -/
theorem exportsOf_declarationsOf_narrowed (text : List Char) :
    exportsOf (declarationsOf (narrowed text)) = exportsOf (declarationsOf text) := by
  have hdeclares := esModule_narrowed.append commonJs_narrowed
  rw [declarationsOf, hdeclares.narrowed text, inTextOrder_moved fun d hd e he hlt =>
    narrowedPlace_lt (hdeclares.notInGap text d hd) (hdeclares.notInGap text e he) hlt,
    exportsOf_moved, declarationsOf]

end Source

end ExportAtlas
