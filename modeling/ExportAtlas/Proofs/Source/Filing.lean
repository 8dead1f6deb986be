import ExportAtlas.Proofs.Distinct
import ExportAtlas.Proofs.Source.TextOrder
/-!
# What declarations are filed as

`exportsOf` files declarations one by one, and each step looks at what the
steps before it left. `filed` says the outcome without steps: a name is a
function or a constant by the first declaration that makes it either, every
list holds its names in the order of first appearance, and an ES default
export goes before the name of a whole CommonJS module.

`foldl_add` is the invariant: after any declarations, the collector holds
what `filed` says of them. It reads their roles and names, never their
places.
-/

namespace ExportAtlas

namespace Source

/-- What a declaration says, less the place where it stands. -/
def Declaration.saying (d : Declaration) : Role × String := (d.role, d.name)

/-! ## The outcome without steps -/

/-- A function or a constant; a name is filed as one of them at most. -/
def Role.isValue (r : Role) : Bool := r == .function || r == .constant

/-- The names of functions and constants, each at its first appearance. -/
def valueNames (said : List (Role × String)) : List String :=
  ((said.filter fun s => s.1.isValue).map Prod.snd).eraseDups

/-- What a name is declared to be first, of function and constant. -/
def firstValueRole? (said : List (Role × String)) (name : String) : Option Role :=
  (said.find? fun s => s.1.isValue && s.2 == name).map Prod.fst

/-- The names declared in a role, each at its first appearance. -/
def namesOf (role : Role) (said : List (Role × String)) : List String :=
  ((said.filter fun s => s.1 == role).map Prod.snd).eraseDups

/-- The name declared first in a role. -/
def firstOf? (role : Role) (said : List (Role × String)) : Option String :=
  (said.find? fun s => s.1 == role).map Prod.snd

/-- The names that were a function, or a constant, first. -/
def namesFirst (role : Role) (said : List (Role × String)) : List String :=
  (valueNames said).filter fun name => firstValueRole? said name == some role

/-- The exports that declarations make. -/
def filed (said : List (Role × String)) : Exports where
  functions := namesFirst .function said
  constants := namesFirst .constant said
  types := namesOf .type said
  interfaces := namesOf .interface said
  classes := namesOf .classDef said
  defaultExport := (firstOf? .defaultExport said).or (firstOf? .wholeModule said)

/-! ## One declaration more -/

section Append

variable {said : List (Role × String)} {role r : Role} {name n : String}

/-- Names without repeats grow by a new name at the end. -/
theorem insertNew_eraseDups (names : List String) (name : String) :
    Collected.insertNew names.eraseDups name = (names ++ [name]).eraseDups := by
  rw [eraseDups_concat, Collected.insertNew, contains_eraseDups]

theorem namesOf_concat :
    namesOf role (said ++ [(r, n)]) =
      if r = role then Collected.insertNew (namesOf role said) n else namesOf role said := by
  unfold namesOf
  by_cases h : r = role
  · rw [if_pos h, insertNew_eraseDups]
    simp [h]
  · rw [if_neg h]
    simp [h]

theorem firstOf?_concat :
    firstOf? role (said ++ [(r, n)]) =
      (firstOf? role said).or (if r = role then some n else none) := by
  unfold firstOf?
  rw [List.find?_append]
  by_cases h : r = role
  · cases said.find? fun s => s.1 == role <;> simp [h]
  · cases said.find? fun s => s.1 == role <;> simp [h]

theorem valueNames_concat :
    valueNames (said ++ [(r, n)]) =
      if r.isValue then Collected.insertNew (valueNames said) n else valueNames said := by
  unfold valueNames
  cases h : r.isValue with
  | true =>
    rw [if_pos rfl, insertNew_eraseDups]
    simp [h]
  | false => simp [h]

/-- A name is a function or a constant exactly when something made it one
first. -/
theorem mem_valueNames : name ∈ valueNames said ↔ (firstValueRole? said name).isSome := by
  unfold valueNames firstValueRole?
  rw [List.mem_eraseDups, Option.isSome_map, List.find?_isSome]
  simp only [List.mem_map, List.mem_filter, Bool.and_eq_true, beq_iff_eq]
  constructor
  · rintro ⟨s, ⟨hs, hv⟩, rfl⟩
    exact ⟨s, hs, hv, rfl⟩
  · rintro ⟨s, hs, hv, rfl⟩
    exact ⟨s, ⟨hs, hv⟩, rfl⟩

/-- The first declaration decides: one more changes nothing for a name that
has been declared. -/
theorem firstValueRole?_concat :
    firstValueRole? (said ++ [(r, n)]) name =
      (firstValueRole? said name).or (if r.isValue && n == name then some r else none) := by
  unfold firstValueRole?
  rw [List.find?_append]
  cases said.find? fun s => s.1.isValue && s.2 == name with
  | some s => simp
  | none =>
    cases h : r.isValue && n == name <;> simp [h]

theorem firstValueRole?_isValue (h : firstValueRole? said name = some r) : r.isValue = true := by
  unfold firstValueRole? at h
  obtain ⟨s, hs, rfl⟩ := Option.map_eq_some_iff.mp h
  have := List.find?_some hs
  simp only [Bool.and_eq_true] at this
  exact this.1

theorem mem_namesFirst : name ∈ namesFirst role said ↔ firstValueRole? said name = some role := by
  unfold namesFirst
  rw [List.mem_filter, mem_valueNames]
  constructor
  · rintro ⟨-, h⟩
    exact by simpa using h
  · intro h
    exact ⟨by rw [h]; rfl, by simpa using h⟩

/-- Where every value is of one role, they are the names first declared in it. -/
theorem namesFirst_of_forall (h : ∀ s ∈ said, s.1.isValue = true → s.1 = role) :
    namesFirst role said = valueNames said := by
  refine List.filter_eq_self.mpr fun name hname => ?_
  obtain ⟨r, hr⟩ := Option.isSome_iff_exists.mp (mem_valueNames.mp hname)
  have hfirst := hr
  unfold firstValueRole? at hfirst
  obtain ⟨s, hs, rfl⟩ := Option.map_eq_some_iff.mp hfirst
  rw [hr, h s (List.mem_of_find?_eq_some hs) (firstValueRole?_isValue hr)]
  exact beq_self_eq_true _

/-- A name that has been declared keeps its list, and with it both lists
stay as they are. -/
theorem namesFirst_concat_of_mem (h : n ∈ valueNames said) :
    namesFirst role (said ++ [(r, n)]) = namesFirst role said := by
  obtain ⟨r', hr'⟩ := Option.isSome_iff_exists.mp (mem_valueNames.mp h)
  have hnames : valueNames (said ++ [(r, n)]) = valueNames said := by
    rw [valueNames_concat, Collected.insertNew, if_pos (List.contains_iff_mem.mpr h), ite_self]
  unfold namesFirst
  rw [hnames]
  -- the names are the old ones, and each of them was decided before
  refine List.filter_congr fun m hm => ?_
  obtain ⟨r'', hr''⟩ := Option.isSome_iff_exists.mp (mem_valueNames.mp hm)
  rw [firstValueRole?_concat, hr'', Option.some_or]

/-- A new name goes to the list of its own role. -/
theorem namesFirst_concat_of_notMem (hr : r.isValue = true) (h : n ∉ valueNames said) :
    namesFirst role (said ++ [(r, n)]) =
      if r = role then namesFirst role said ++ [n] else namesFirst role said := by
  have hnames : valueNames (said ++ [(r, n)]) = valueNames said ++ [n] := by
    rw [valueNames_concat, if_pos hr, Collected.insertNew,
      if_neg fun hc => h (List.contains_iff_mem.mp hc)]
  have hold : ∀ m ∈ valueNames said,
      (firstValueRole? (said ++ [(r, n)]) m == some role) =
        (firstValueRole? said m == some role) := by
    intro m hm
    obtain ⟨r', hr'⟩ := Option.isSome_iff_exists.mp (mem_valueNames.mp hm)
    rw [firstValueRole?_concat, hr', Option.some_or]
  have hnone : firstValueRole? said n = none := by
    rw [← Option.not_isSome_iff_eq_none]
    exact fun hc => h (mem_valueNames.mpr hc)
  have hnew : firstValueRole? (said ++ [(r, n)]) n = some r := by
    rw [firstValueRole?_concat, hnone]
    simp [hr]
  unfold namesFirst
  rw [hnames, List.filter_append, List.filter_congr hold]
  by_cases hrr : r = role
  · subst hrr
    simp [hnew]
  · simp [hnew, hrr]

/-- What is no function and no constant leaves both lists alone. -/
theorem namesFirst_concat_of_not_isValue (hr : r.isValue = false) :
    namesFirst role (said ++ [(r, n)]) = namesFirst role said := by
  unfold namesFirst
  rw [valueNames_concat, hr, if_neg Bool.false_ne_true]
  refine List.filter_congr fun m _ => ?_
  rw [firstValueRole?_concat]
  simp [hr]

end Append

/-! ## The invariant of the collector -/

/-- What the collector holds after declarations. -/
def collected (said : List (Role × String)) : Collected :=
  ⟨{ filed said with defaultExport := firstOf? .defaultExport said }, firstOf? .wholeModule said⟩

/-- A declaration of a value, filed: the list it belongs to takes the name
unless the other list has it. -/
theorem namesFirst_concat {said : List (Role × String)} {r other : Role} {n : String}
    (hr : r.isValue = true) (hother : ∀ r', r'.isValue = true → r' = r ∨ r' = other)
    (hne : r ≠ other) :
    namesFirst r (said ++ [(r, n)]) =
        (if (namesFirst other said).contains n then namesFirst r said
          else Collected.insertNew (namesFirst r said) n) ∧
      namesFirst other (said ++ [(r, n)]) = namesFirst other said := by
  by_cases hm : n ∈ valueNames said
  · rw [namesFirst_concat_of_mem hm, namesFirst_concat_of_mem hm]
    refine ⟨?_, rfl⟩
    obtain ⟨r', hr'⟩ := Option.isSome_iff_exists.mp (mem_valueNames.mp hm)
    -- what it was first decides: in its own list it stands already, and the other one bars it
    rcases hother r' (firstValueRole?_isValue hr') with rfl | rfl
    · have hin : n ∈ namesFirst r' said := mem_namesFirst.mpr hr'
      rw [Collected.insertNew, if_pos (List.contains_iff_mem.mpr hin), ite_self]
    · rw [if_pos (List.contains_iff_mem.mpr (mem_namesFirst.mpr hr'))]
  · have hout : ∀ role, n ∉ namesFirst role said := fun role hc =>
      hm (List.mem_filter.mp hc).1
    rw [namesFirst_concat_of_notMem hr hm, namesFirst_concat_of_notMem hr hm, if_pos rfl,
      if_neg hne, if_neg fun hc => hout other (List.contains_iff_mem.mp hc),
      Collected.insertNew, if_neg fun hc => hout r (List.contains_iff_mem.mp hc)]
    exact ⟨rfl, rfl⟩

/-- **One step of the collector**: filing one more declaration is `filed` of
one more saying. -/
theorem collected_concat (said : List (Role × String)) (d : Declaration) :
    collected (said ++ [d.saying]) = (collected said).add d := by
  obtain ⟨p, r, n⟩ := d
  have hcases : ∀ r' : Role, r'.isValue = true → r' = .function ∨ r' = .constant := by
    intro r' h
    simpa [Role.isValue] using h
  have hrest : r.isValue = false → ∀ role,
      namesFirst role (said ++ [(r, n)]) = namesFirst role said :=
    fun h role => namesFirst_concat_of_not_isValue h
  change collected (said ++ [(r, n)]) = _
  cases r with
  | function =>
    obtain ⟨h1, h2⟩ := namesFirst_concat rfl hcases
      (by decide : Role.function ≠ .constant)
    by_cases h : (namesFirst .constant said).contains n = true
    · have hadd : (collected said).exports.constants.contains n = true := h
      rw [if_pos h] at h1
      rw [Collected.add, if_pos hadd]
      simp [collected, filed, namesOf_concat, firstOf?_concat, h1, h2]
    · have hadd : ¬ (collected said).exports.constants.contains n = true := h
      rw [if_neg h] at h1
      rw [Collected.add, if_neg hadd]
      simp [collected, filed, namesOf_concat, firstOf?_concat, h1, h2]
  | constant =>
    obtain ⟨h1, h2⟩ := namesFirst_concat rfl
      (fun r' h => (hcases r' h).symm) (by decide : Role.constant ≠ .function)
    by_cases h : (namesFirst .function said).contains n = true
    · have hadd : (collected said).exports.functions.contains n = true := h
      rw [if_pos h] at h1
      rw [Collected.add, if_pos hadd]
      simp [collected, filed, namesOf_concat, firstOf?_concat, h1, h2]
    · have hadd : ¬ (collected said).exports.functions.contains n = true := h
      rw [if_neg h] at h1
      rw [Collected.add, if_neg hadd]
      simp [collected, filed, namesOf_concat, firstOf?_concat, h1, h2]
  | type | interface | classDef | defaultExport | wholeModule =>
    -- no value, so both value lists stay, and one list or register takes the name
    simp [collected, filed, Collected.add, namesOf_concat, firstOf?_concat, hrest rfl]

/-- **The invariant of every run of the collector.** -/
theorem foldl_add (ds : List Declaration) :
    ds.foldl Collected.add Collected.empty = collected (ds.map Declaration.saying) := by
  induction ds using List.reverseRecOn with
  | nil => rfl
  | append_singleton ds d ih =>
    rw [List.foldl_append, List.foldl_cons, List.foldl_nil, ih, List.map_append, List.map_cons,
      List.map_nil, collected_concat]

/-- The exports of declarations depend on their roles and names, in order. -/
theorem exportsOf_eq_filed (ds : List Declaration) :
    exportsOf ds = filed (ds.map Declaration.saying) := by
  rw [exportsOf, foldl_add]
  rfl

/-! ## A default export that comes first -/

/-- Once there is a default export, declaring others changes nothing. -/
theorem foldl_add_filter {c : Collected} (hc : c.exports.defaultExport.isSome)
    (ds : List Declaration) :
    ds.foldl Collected.add c = (ds.filter (·.role != .defaultExport)).foldl Collected.add c := by
  induction ds generalizing c with
  | nil => rfl
  | cons d ds ih =>
    rw [List.foldl_cons, List.filter_cons]
    by_cases hrole : d.role = .defaultExport
    · have hadd : c.add d = c := by
        obtain ⟨first, hfirst⟩ := Option.isSome_iff_exists.mp hc
        rw [Collected.add, hrole]
        simp only [hfirst, Option.some_or]
        rw [← hfirst]
      rw [hadd, if_neg (by simpa using hrole)]
      exact ih hc
    · have hadd : (c.add d).exports.defaultExport = c.exports.defaultExport := by
        cases hd : d.role with
        | defaultExport => exact absurd hd hrole
        | function | constant =>
          simp only [Collected.add, hd]
          split <;> rfl
        | _ => simp only [Collected.add, hd]
      rw [if_pos (bne_iff_ne.mpr hrole), List.foldl_cons]
      exact ih (by rwa [hadd])

/-- So behind one the others can be left out. -/
theorem exportsOf_append_filter {front : List Declaration}
    (hfront : ∃ d ∈ front, d.role = .defaultExport) (ds : List Declaration) :
    exportsOf (front ++ ds) = exportsOf (front ++ ds.filter (·.role != .defaultExport)) := by
  have hsome : (front.foldl Collected.add Collected.empty).exports.defaultExport.isSome := by
    obtain ⟨d, hd, hrole⟩ := hfront
    rw [foldl_add]
    change (Option.map _ (List.find? _ _)).isSome = true
    rw [Option.isSome_map, List.find?_isSome]
    exact ⟨d.saying, List.mem_map_of_mem hd, by rw [beq_iff_eq]; exact hrole⟩
  rw [exportsOf, exportsOf, List.foldl_append, List.foldl_append, foldl_add_filter hsome]

/-! ## First classification wins -/

/-- No name is a function and a constant: only one of its declarations is
the first. -/
theorem disjoint_namesFirst (said : List (Role × String)) :
    (namesFirst .function said).Disjoint (namesFirst .constant said) := by
  intro name hf hc
  have h := (mem_namesFirst.mp hf).symm.trans (mem_namesFirst.mp hc)
  cases h

/-- And every name declared as either is in one of the two lists. -/
theorem mem_functions_or_constants {said : List (Role × String)} {name : String} :
    name ∈ namesFirst .function said ∨ name ∈ namesFirst .constant said ↔
      ∃ s ∈ said, s.1.isValue = true ∧ s.2 = name := by
  have hsome : (firstValueRole? said name).isSome ↔
      ∃ s ∈ said, s.1.isValue = true ∧ s.2 = name := by
    unfold firstValueRole?
    rw [Option.isSome_map, List.find?_isSome]
    simp only [Bool.and_eq_true, beq_iff_eq]
  rw [mem_namesFirst, mem_namesFirst, ← hsome]
  constructor
  · rintro (h | h)
    · rw [h]; rfl
    · rw [h]; rfl
  · intro h
    obtain ⟨r, hr⟩ := Option.isSome_iff_exists.mp h
    have hv := firstValueRole?_isValue hr
    simp only [Role.isValue, Bool.or_eq_true, beq_iff_eq] at hv
    rcases hv with rfl | rfl
    · exact .inl hr
    · exact .inr hr

/-- **First classification wins, for every source text.** The declarations
found in the masked text are put into the order of the text by a stable
sort, and the exports are what `filed` says of them. The names of functions
and of constants are without repeats, have no name in common, and are
together all the names declared as one of the two. -/
theorem extract_eq_filed (source : List Char) :
    ∃ hits : List Declaration,
      hits.Perm (EsModule.declarations (blankComments source) ++
        CommonJs.declarations (blankComments source)) ∧
      hits.Pairwise (fun a b => a.position ≤ b.position) ∧
      (∀ p, hits.filter (fun d => d.position == p) =
        (EsModule.declarations (blankComments source) ++
          CommonJs.declarations (blankComments source)).filter fun d => d.position == p) ∧
      extract source = filed (hits.map Declaration.saying) ∧
      (extract source).functions.Nodup ∧ (extract source).constants.Nodup ∧
      (extract source).functions.Disjoint (extract source).constants ∧
      ∀ name, name ∈ (extract source).functions ∨ name ∈ (extract source).constants ↔
        ∃ d ∈ hits, d.role.isValue = true ∧ d.name = name := by
  have hfiled : extract source =
      filed ((declarationsOf (blankComments source)).map Declaration.saying) :=
    exportsOf_eq_filed _
  refine ⟨declarationsOf (blankComments source), inTextOrder_perm, pairwise_inTextOrder,
    filter_inTextOrder, hfiled, ?_, ?_, ?_, fun name => ?_⟩
  · rw [hfiled]
    exact (nodup_eraseDups _).filter _
  · rw [hfiled]
    exact (nodup_eraseDups _).filter _
  · rw [hfiled]
    exact disjoint_namesFirst _
  · rw [hfiled]
    refine mem_functions_or_constants.trans ?_
    constructor
    · rintro ⟨s, hs, hv, hname⟩
      obtain ⟨d, hd, rfl⟩ := List.mem_map.mp hs
      exact ⟨d, hd, hv, hname⟩
    · rintro ⟨d, hd, hv, hname⟩
      exact ⟨d.saying, List.mem_map_of_mem hd, hv, hname⟩

end Source

end ExportAtlas
