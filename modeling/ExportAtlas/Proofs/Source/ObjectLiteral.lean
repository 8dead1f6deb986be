import ExportAtlas.Proofs.Source.Constants
/-!
# Object literals

What is recorded of `module.exports = { … }`. The literal is read up to the first
closing brace, and each comma in it is taken for the end of an item, whatever
brackets either stands in. So behind a key comes what the reader finds in its
value, and nothing comes behind a value that holds a closing brace
(`functions_objectLiteral`).
-/

namespace ExportAtlas

namespace Source

open Text (isBlank cutAt)

variable {s source text : List Char} {p : Nat}

/-! ## The keys of a text -/

/-- The keys read in a text: of the items between its commas, those that are
identifiers of ASCII up to the colon. -/
def keysIn (s : List Char) : List (List Char) :=
  ((Text.splitOn ',' s).map CommonJs.keyOf).filter CommonJs.isPlainName

theorem keysIn_append_cons (a b : List Char) : keysIn (a ++ ',' :: b) = keysIn a ++ keysIn b := by
  rw [keysIn, Text.splitOn_append, List.map_append, List.filter_append]
  rfl

theorem keysIn_of_notMem (h : ',' ∉ s) :
    keysIn s = [CommonJs.keyOf s].filter CommonJs.isPlainName := by
  rw [keysIn, Text.splitOn_of_notMem h, List.map_singleton]

theorem keysIn_blanks (g : Blanks) : keysIn g.chars = [] := by
  have hnotMem : ∀ c, isBlank c = false → c ∉ g.chars := fun c hc hmem => by
    rw [g.isBlank c hmem] at hc
    cases hc
  have hkey : CommonJs.keyOf g.chars = [] := by
    rw [CommonJs.keyOf, Text.cutAt_of_notMem (hnotMem ':' rfl)]
    exact Text.trim_eq_nil_iff.mpr g.isBlank
  rw [keysIn_of_notMem (hnotMem ',' rfl), hkey]
  rfl

/-- The items of an object literal declare its keys. -/
theorem name_filterMap_placed (p : Nat) (items : List (List Char)) :
    ((CommonJs.placed p items).filterMap keyDeclaration?).map Declaration.name =
      ((items.map CommonJs.keyOf).filter CommonJs.isPlainName).map String.ofList := by
  induction items generalizing p with
  | nil => rfl
  | cons item items ih =>
    rw [CommonJs.placed, List.map_cons, List.filter_cons]
    by_cases hkey : CommonJs.isPlainName (CommonJs.keyOf item) = true
    · have hd : keyDeclaration? (p, item) =
          some ⟨p, .function, String.ofList (CommonJs.keyOf item)⟩ := if_pos hkey
      rw [List.filterMap_cons_some hd, List.map_cons, ih, if_pos hkey, List.map_cons]
    · have hd : keyDeclaration? (p, item) = none := if_neg hkey
      rw [List.filterMap_cons_none hd, ih, if_neg hkey]

/-- And they declare them from left to right. -/
theorem pairwise_filterMap_placed (p : Nat) (items : List (List Char)) :
    ((CommonJs.placed p items).filterMap keyDeclaration?).Pairwise
      fun a b => a.position ≤ b.position := by
  induction items generalizing p with
  | nil => exact List.Pairwise.nil
  | cons item items ih =>
    rw [CommonJs.placed, List.filterMap_cons]
    split
    · exact ih _
    · rename_i d hd
      refine List.pairwise_cons.mpr ⟨fun e he => ?_, ih _⟩
      obtain ⟨r, hr, her⟩ := List.mem_filterMap.mp he
      have hle := le_of_mem_placed hr
      rw [eq_of_keyDeclaration? hd, eq_of_keyDeclaration? her]
      dsimp only
      omega

/-! ## Where no other value is declared -/

/-- The literal at a place is all that declares functions and constants in a
text: no statement declares one, and no other literal is assigned to
`module.exports`. -/
structure OnlyLiteral (text : List Char) (p : Nat) : Prop where
  values : ∀ d ∈ EsModule.declarations text ++ CommonJs.members text, d.role.isValue = false
  literals : ∀ r ∈ occurrences CommonJs.objectForm text, r.1 = p

theorem pairwise_objectKeys (text : List Char) :
    (CommonJs.objectKeys text).Pairwise fun a b => a.position ≤ b.position := by
  rw [CommonJs.objectKeys]
  split
  · exact List.Pairwise.nil
  · exact pairwise_filterMap_placed _ _

theorem role_of_mem_objectKeys {d : Declaration} (h : d ∈ CommonJs.objectKeys text) :
    d.role = .function := by
  rw [CommonJs.objectKeys] at h
  split at h
  · cases h
  · obtain ⟨r, -, hd⟩ := List.mem_filterMap.mp h
    rw [eq_of_keyDeclaration? hd]

/-- The values declared are the keys. -/
theorem filter_isValue_declarationsOf (h : OnlyLiteral text p) :
    (declarationsOf text).filter (fun d => d.role.isValue) = CommonJs.objectKeys text := by
  have hvalues := List.forall_mem_append.mp h.values
  have hes : (EsModule.declarations text).filter (fun d => d.role.isValue) = [] :=
    List.filter_eq_nil_iff.mpr fun d hd => by simp [hvalues.1 d hd]
  have hmembers : (CommonJs.members text).filter (fun d => d.role.isValue) = [] :=
    List.filter_eq_nil_iff.mpr fun d hd => by simp [hvalues.2 d hd]
  have hkeys : (CommonJs.objectKeys text).filter (fun d => d.role.isValue) =
      CommonJs.objectKeys text :=
    List.filter_eq_self.mpr fun d hd => by
      rw [role_of_mem_objectKeys hd]
      rfl
  have hdeclare : ∀ role found, role.isValue = false →
      (declare role found).filter (fun d => d.role.isValue) = [] := by
    intro role found hrole
    refine List.filter_eq_nil_iff.mpr fun d hd => ?_
    obtain ⟨r, -, rfl⟩ := List.mem_map.mp hd
    simp [hrole]
  have hwhole : (declareUnreserved .wholeModule (occurrences CommonJs.wholeForm text)).filter
      (fun d => d.role.isValue) = [] := by
    rw [declareUnreserved, filter_swap, hdeclare _ _ rfl]
    rfl
  rw [declarationsOf, filter_inTextOrder_comm, List.filter_append, hes, CommonJs.declarations,
    List.filter_append, List.filter_append, List.filter_append, hmembers, hkeys, hwhole,
    hdeclare _ _ rfl, List.append_nil, List.append_nil, List.nil_append, List.nil_append]
  exact inTextOrder_eq (pairwise_objectKeys text) fun _ => rfl

/-- **Where no other value is declared the functions are the keys**, each at its
first appearance, and there are no constants. -/
theorem extract_of_onlyLiteral (hsource : blankComments source = text) (h : OnlyLiteral text p) :
    (extract source).functions = ((CommonJs.objectKeys text).map Declaration.name).eraseDups ∧
      (extract source).constants = [] := by
  have hfiled : extract source = filed ((declarationsOf text).map Declaration.saying) := by
    rw [extract, hsource, exportsOf_eq_filed]
  have hsaid : ((declarationsOf text).map Declaration.saying).filter (fun s => s.1.isValue) =
      (CommonJs.objectKeys text).map Declaration.saying := by
    rw [← filter_isValue_declarationsOf h, List.filter_map]
    rfl
  have hnames : valueNames ((declarationsOf text).map Declaration.saying) =
      ((CommonJs.objectKeys text).map Declaration.name).eraseDups := by
    rw [valueNames, hsaid, List.map_map]
    rfl
  have hfunctions : namesFirst .function ((declarationsOf text).map Declaration.saying) =
      valueNames ((declarationsOf text).map Declaration.saying) := by
    refine namesFirst_of_forall fun s hs hvalue => ?_
    have hmem : s ∈ (CommonJs.objectKeys text).map Declaration.saying := by
      rw [← hsaid]
      exact List.mem_filter.mpr ⟨hs, hvalue⟩
    obtain ⟨d, hd, rfl⟩ := List.mem_map.mp hmem
    exact role_of_mem_objectKeys hd
  have hdisjoint := disjoint_namesFirst ((declarationsOf text).map Declaration.saying)
  rw [hfiled]
  dsimp only [filed]
  refine ⟨hfunctions.trans hnames, List.eq_nil_iff_forall_not_mem.mpr fun name hname => ?_⟩
  -- a constant would be a value, and those are functions
  refine hdisjoint ?_ hname
  rw [hfunctions]
  exact (List.mem_filter.mp hname).1

/-! ## The literal -/

/-- `module.exports`, an object literal, and what follows it. -/
def moduleExports (g g' : Blanks) (body after : List Char) : List Char :=
  "module.exports".toList ++ (g.chars ++ '=' :: (g'.chars ++ '\x7b' :: (body ++ '\x7d' :: after)))

/-- The form of an object literal reads what stands in front of the first closing
brace, if there is anything. -/
theorem objectForm_moduleExports (g g' : Blanks) (body after : List Char) :
    ∃ offset left, CommonJs.objectForm (moduleExports g g' body after) =
      if (cutAt '\x7d' body).1.isEmpty then none
      else some ((offset, (cutAt '\x7d' body).1), left) := by
  obtain ⟨left, hinside, hfront⟩ : ∃ left,
      body ++ '\x7d' :: after = (cutAt '\x7d' body).1 ++ '\x7d' :: left ∧
        '\x7d' ∉ (cutAt '\x7d' body).1 := by
    by_cases hbrace : '\x7d' ∈ body
    · obtain ⟨front, rest, rfl, hfront⟩ := List.eq_append_cons_of_mem hbrace
      rw [Text.cutAt_append_cons hfront]
      exact ⟨rest ++ '\x7d' :: after, List.append_assoc .., hfront⟩
    · rw [Text.cutAt_of_notMem hbrace]
      exact ⟨after, rfl, hbrace⟩
  have hhead : CommonJs.moduleHead (moduleExports g g' body after) =
      some ('\x7b' :: (body ++ '\x7d' :: after)) := by
    have hexpect : CommonJs.moduleHead (moduleExports g g' body after) =
        (expectChar '=' (skipBlanks (g.chars ++ '=' :: (g'.chars ++
          '\x7b' :: (body ++ '\x7d' :: after))))).bind fun s => some (skipBlanks s) := rfl
    rw [hexpect, g.skipBlanks_append]
    exact congrArg some (g'.skipBlanks_append _)
  have hpass := Text.bne_of_notMem hfront
  have htake : (body ++ '\x7d' :: after).takeWhile (· != '\x7d') = (cutAt '\x7d' body).1 := by
    rw [hinside, List.takeWhile_append_of_pos hpass, List.takeWhile_cons, if_neg (by decide),
      List.append_nil]
  have hdrop : (body ++ '\x7d' :: after).dropWhile (· != '\x7d') = '\x7d' :: left := by
    rw [hinside, List.dropWhile_append_of_pos hpass, List.dropWhile_cons, if_neg (by decide)]
  refine ⟨(moduleExports g g' body after).length - (body ++ '\x7d' :: after).length, left, ?_⟩
  have hopen : expectChar '\x7b' ('\x7b' :: (body ++ '\x7d' :: after)) =
      some (body ++ '\x7d' :: after) := rfl
  have hclose : expectChar '\x7d' ('\x7d' :: left) = some left := rfl
  rw [objectForm_eq_bind, hhead, Option.bind_some, hopen, Option.bind_some, htake, hdrop, hclose,
    Option.bind_some]

/-- **The keys of the only literal** are those read in front of its first closing
brace. -/
theorem name_objectKeys {before after body : List Char} {g g' : Blanks}
    (hword : endsInWord false before = false)
    (hliterals : ∀ r ∈ occurrences CommonJs.objectForm (before ++ moduleExports g g' body after),
      r.1 = before.length) :
    (CommonJs.objectKeys (before ++ moduleExports g g' body after)).map Declaration.name =
      (keysIn (cutAt '\x7d' body).1).map String.ofList := by
  obtain ⟨offset, left, hform⟩ := objectForm_moduleExports g g' body after
  split at hform
  · rename_i hempty
    -- nothing is read at the literal, and nothing anywhere else
    have hnone :
        occurrences CommonJs.objectForm (before ++ moduleExports g g' body after) = [] := by
      refine List.eq_nil_iff_forall_not_mem.mpr fun r hr => ?_
      have hplace := filter_occurrences_of_none before hform
      rw [List.filter_eq_nil_iff] at hplace
      exact hplace r hr (by rw [hliterals r hr, beq_self_eq_true])
    rw [CommonJs.objectKeys, hnone, List.isEmpty_iff.mp hempty]
    rfl
  · have hhead : (occurrences CommonJs.objectForm
        (before ++ moduleExports g g' body after)).head? =
          some (before.length, offset, (cutAt '\x7d' body).1) :=
      head?_occurrences hform hword fun r hr => Nat.le_of_eq (hliterals r hr).symm
    rw [CommonJs.objectKeys, hhead]
    exact name_filterMap_placed _ _

/-! ## Entries -/

/-- An entry of an object literal: a key, and perhaps a value, which is any text
behind a colon. -/
structure Entry where
  lead : Blanks
  key : Word
  gap : Blanks
  value? : Option (List Char)

namespace Entry

variable (e : Entry)

/-- What stands up to the colon. -/
def head : List Char := e.lead.chars ++ (e.key.chars ++ e.gap.chars)

/-- What stands behind the colon, if there is one. -/
def value : List Char := e.value?.getD []

/-- The text of an entry. -/
def chars : List Char := e.head ++ (e.value?.map fun value => ':' :: value).getD []

/-- The key, if it is an identifier of ASCII; others are not read. -/
def ownKeys : List (List Char) := [e.key.chars].filter CommonJs.isPlainName

/-- The keys read in the value: behind its first comma, and in front of its first
closing brace. -/
def innerKeys : List (List Char) :=
  ((cutAt ',' (cutAt '\x7d' e.value).1).2.map keysIn).getD []

end Entry

/-- What stands between the braces of an object literal: its entries with commas
between them, and perhaps a last comma with blanks. -/
def literalBody (trailing? : Option Blanks) : List Entry → List Char
  | [] => (trailing?.map Blanks.chars).getD []
  | e :: es =>
    if es.isEmpty && trailing?.isNone then e.chars
    else e.chars ++ ',' :: literalBody trailing? es

/-- **The keys taken from an object literal**: of each entry its own and those
read in its value, up to the first value that holds a closing brace. -/
def takenKeys : List Entry → List (List Char)
  | [] => []
  | e :: es => e.ownKeys ++ e.innerKeys ++ if '\x7d' ∈ e.value then [] else takenKeys es

namespace Entry

variable (e : Entry)

/-- No separator stands in front of the colon. -/
theorem notMem_head {c : Char} (hblank : isBlank c = false) (hpart : isNamePart c = false) :
    c ∉ e.head := by
  intro h
  rw [head, List.mem_append, List.mem_append] at h
  rcases h with h | h | h
  · rw [e.lead.isBlank c h] at hblank
    cases hblank
  · rw [e.key.parts c h] at hpart
    cases hpart
  · rw [e.gap.isBlank c h] at hblank
    cases hblank

theorem trim_head : Text.trim e.head = e.key.chars := by
  refine Text.trim_of_not_isBlank e.lead.isBlank e.gap.isBlank (fun c hc => ?_) e.key.ne_nil
  refine Bool.eq_false_iff.mpr fun hblank => ?_
  have hpart := e.key.parts c hc
  rw [isNamePart_of_isBlank hblank] at hpart
  cases hpart

theorem keysIn_head : keysIn e.head = e.ownKeys := by
  rw [keysIn_of_notMem (e.notMem_head (by decide) (by decide)), CommonJs.keyOf,
    Text.cutAt_of_notMem (e.notMem_head (by decide) (by decide)), e.trim_head, ownKeys]

/-- What follows the colon, up to a comma, has no part in the key. -/
theorem keysIn_head_append {v : List Char} (hv : ',' ∉ v) :
    keysIn (e.head ++ ':' :: v) = e.ownKeys := by
  have hcomma : ',' ∉ e.head ++ ':' :: v := by
    rw [List.mem_append, List.mem_cons]
    rintro (h | h | h)
    · exact e.notMem_head (by decide) (by decide) h
    · exact absurd h (by decide)
    · exact hv h
  rw [keysIn_of_notMem hcomma, CommonJs.keyOf,
    Text.cutAt_append_cons (e.notMem_head (by decide) (by decide)), e.trim_head, ownKeys]

/-- **The keys read in an entry** are its own and those in its value. -/
theorem keysIn_chars : keysIn (cutAt '\x7d' e.chars).1 = e.ownKeys ++ e.innerKeys := by
  rw [chars, Text.cutAt_fst_append_of_notMem (e.notMem_head (by decide) (by decide)), innerKeys,
    value]
  cases e.value? with
  | none =>
    change keysIn (e.head ++ []) = e.ownKeys ++ []
    rw [List.append_nil, List.append_nil, e.keysIn_head]
  | some v =>
    have hcut : (cutAt '\x7d' (':' :: v)).1 = ':' :: (cutAt '\x7d' v).1 := rfl
    rw [Option.map_some, Option.getD_some, Option.getD_some, hcut]
    generalize (cutAt '\x7d' v).1 = front
    by_cases hcomma : ',' ∈ front
    · obtain ⟨x, rest, rfl, hx⟩ := List.eq_append_cons_of_mem hcomma
      rw [Text.cutAt_append_cons hx, ← List.cons_append, ← List.append_assoc, keysIn_append_cons,
        e.keysIn_head_append hx]
      rfl
    · rw [Text.cutAt_of_notMem hcomma, e.keysIn_head_append hcomma]
      exact (List.append_nil _).symm

theorem ownKeys_of_ne_nil (h : e.ownKeys ≠ []) : e.ownKeys = [e.key.chars] := by
  unfold ownKeys at h ⊢
  rw [List.filter_cons] at h ⊢
  split at h
  · rename_i hplain
    rw [if_pos hplain]
    rfl
  · exact absurd rfl h

/-- No brace stands in front of the value. -/
theorem mem_chars : '\x7d' ∈ e.chars ↔ '\x7d' ∈ e.value := by
  rw [chars, value, List.mem_append]
  have hhead := e.notMem_head (c := '\x7d') (by decide) (by decide)
  cases e.value? with
  | none => simp [hhead]
  | some v => simp [hhead]

end Entry

/-- Behind an entry the reader goes on, unless a brace in its value has closed the
literal. -/
theorem keysIn_entry_append (e : Entry) {es : List Entry}
    (hs : keysIn (cutAt '\x7d' s).1 = takenKeys es) :
    keysIn (cutAt '\x7d' (e.chars ++ ',' :: s)).1 = takenKeys (e :: es) := by
  rw [takenKeys, ← e.keysIn_chars]
  by_cases hbrace : '\x7d' ∈ e.value
  · rw [Text.cutAt_fst_append_of_mem (e.mem_chars.mpr hbrace), if_pos hbrace, List.append_nil]
  · have hchars : '\x7d' ∉ e.chars := fun h => hbrace (e.mem_chars.mp h)
    have hcomma : (cutAt '\x7d' (',' :: s)).1 = ',' :: (cutAt '\x7d' s).1 := rfl
    rw [Text.cutAt_fst_append_of_notMem hchars, hcomma, keysIn_append_cons, hs, if_neg hbrace,
      Text.cutAt_of_notMem hchars]

/-- **The keys read in a literal** are those taken from its entries. -/
theorem keysIn_literalBody (trailing? : Option Blanks) (es : List Entry) :
    keysIn (cutAt '\x7d' (literalBody trailing? es)).1 = takenKeys es := by
  induction es with
  | nil =>
    cases trailing? with
    | none => rfl
    | some g =>
      have hbrace : '\x7d' ∉ g.chars := fun h => by cases g.isBlank _ h
      change keysIn (cutAt '\x7d' g.chars).1 = []
      rw [Text.cutAt_of_notMem hbrace, keysIn_blanks]
  | cons e es ih =>
    rw [literalBody]
    split
    · rename_i hlast
      -- no comma is behind it, and no entry
      rw [Bool.and_eq_true, List.isEmpty_iff] at hlast
      rw [e.keysIn_chars, hlast.1, takenKeys, takenKeys, ite_self, List.append_nil]
    · exact keysIn_entry_append e ih

/-! ## What is recorded -/

/-- Something is read that is no key of a literal, or a key of it is not: a key
beyond ASCII, a key in a value, or a closing brace in a value that is not the
last. -/
def IsMisread (es : List Entry) : Prop :=
  (∃ e ∈ es, e.ownKeys = [] ∨ e.innerKeys ≠ []) ∨ ∃ e ∈ es.dropLast, '\x7d' ∈ e.value

instance (es : List Entry) : Decidable (IsMisread es) := inferInstanceAs (Decidable (_ ∨ _))

theorem not_isMisread_cons {e : Entry} {es : List Entry} (h : ¬ IsMisread (e :: es)) :
    e.ownKeys ≠ [] ∧ e.innerKeys = [] ∧ ('\x7d' ∈ e.value → es = []) ∧ ¬ IsMisread es := by
  have hkeys : ¬ (e.ownKeys = [] ∨ e.innerKeys ≠ []) := fun hkeys =>
    h (.inl ⟨e, List.mem_cons_self .., hkeys⟩)
  rw [not_or, not_not] at hkeys
  have hdropLast : es ≠ [] → (e :: es).dropLast = e :: es.dropLast := fun hne =>
    List.dropLast_cons_of_ne_nil hne
  refine ⟨hkeys.1, hkeys.2, fun hbrace => ?_, fun hes => h ?_⟩
  · by_contra hne
    refine h (.inr ⟨e, ?_, hbrace⟩)
    rw [hdropLast hne]
    exact List.mem_cons_self ..
  · rcases hes with ⟨e', he', hkeys'⟩ | ⟨e', he', hbrace⟩
    · exact .inl ⟨e', List.mem_cons_of_mem e he', hkeys'⟩
    · refine .inr ⟨e', ?_, hbrace⟩
      rw [hdropLast fun hnil => by rw [hnil] at he'; cases he']
      exact List.mem_cons_of_mem e he'

/-- **Of a literal that is not misread the keys are taken** as they are
written. -/
theorem takenKeys_of_not_isMisread {es : List Entry} (h : ¬ IsMisread es) :
    takenKeys es = es.map fun e => e.key.chars := by
  induction es with
  | nil => rfl
  | cons e es ih =>
    obtain ⟨hown, hinner, hbrace, hlater⟩ := not_isMisread_cons h
    rw [takenKeys, e.ownKeys_of_ne_nil hown, hinner, List.map_cons, List.append_nil,
      List.singleton_append]
    split
    · rename_i hmem
      rw [hbrace hmem]
      rfl
    · rw [ih hlater]

/-- The names of keys, each at its first appearance. -/
def namesOfKeys (keys : List (List Char)) : List String := (keys.map String.ofList).eraseDups

/-- **What is recorded of an object literal** that alone declares functions and
constants: the keys taken from it, each at its first appearance, and no
constant. They are the keys of the literal if it is not misread. -/
theorem functions_objectLiteral {source before after : List Char} {g g' : Blanks}
    (trailing? : Option Blanks) (es : List Entry)
    (hsource : blankComments source =
      before ++ moduleExports g g' (literalBody trailing? es) after)
    (hword : endsInWord false before = false)
    (honly : OnlyLiteral (blankComments source) before.length) :
    (extract source).functions = namesOfKeys (takenKeys es) ∧
    (extract source).constants = [] ∧
    (¬ IsMisread es →
      (extract source).functions = namesOfKeys (es.map fun e => e.key.chars)) := by
  have hrecorded := extract_of_onlyLiteral rfl honly
  have hfunctions : (extract source).functions = namesOfKeys (takenKeys es) := by
    rw [hsource] at honly
    rw [hrecorded.1, hsource, name_objectKeys hword honly.literals, keysIn_literalBody]
    rfl
  refine ⟨hfunctions, hrecorded.2, fun h => ?_⟩
  rw [hfunctions, takenKeys_of_not_isMisread h]

/-- Two helpers, one of them made by a call, and a comma behind the last. -/
theorem functions_objectLiteral_helpers :
    (extract "module.exports = \x7b\n  sum,\n  max: by([0], gt),\n\x7d;\n".toList).functions =
      ["sum", "max"] := by
  let line : Blanks := ⟨"\n  ".toList, List.all_eq_true.mp rfl⟩
  let last : Blanks := ⟨"\n".toList, List.all_eq_true.mp rfl⟩
  let sum : Entry :=
    ⟨line, ⟨"sum".toList, by decide, List.all_eq_true.mp rfl⟩, ⟨[], nofun⟩, none⟩
  let max : Entry :=
    ⟨line, ⟨"max".toList, by decide, List.all_eq_true.mp rfl⟩, ⟨[], nofun⟩,
      some " by([0], gt)".toList⟩
  have hsource :
      blankComments "module.exports = \x7b\n  sum,\n  max: by([0], gt),\n\x7d;\n".toList =
        [] ++ moduleExports Gap.space.toBlanks Gap.space.toBlanks
          (literalBody (some last) [sum, max]) ";\n".toList := by decide
  exact (functions_objectLiteral (some last) [sum, max] hsource rfl ⟨by decide, by decide⟩).2.2
    (by decide)

/-- An argument of a call is taken for a key, and what stands behind a nested
literal is not read. -/
theorem functions_objectLiteral_misread :
    (extract "module.exports = \x7b a: f(b, c, d), e \x7d;".toList).functions = ["a", "c", "e"] ∧
    (extract "module.exports = \x7b a: \x7b b: 1 \x7d, c \x7d;".toList).functions = ["a"] := by
  constructor
  · exact (extract_of_onlyLiteral (p := 0) rfl ⟨by decide, by decide⟩).1.trans (by decide)
  · exact (extract_of_onlyLiteral (p := 0) rfl ⟨by decide, by decide⟩).1.trans (by decide)

end Source

end ExportAtlas
