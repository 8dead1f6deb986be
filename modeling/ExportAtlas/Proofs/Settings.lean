import ExportAtlas.Proofs.Distinct
import ExportAtlas.Proofs.Text.Lowered
import ExportAtlas.Settings
/-!
# Settings under changes

Extensions are kept in a normal form, in which a dot stands in front of a
trimmed and lowered text (`IsExtension`). Bringing an extension into its form
once is enough (`IsExtension.normalizeExtension_eq`), and what is asked for
is found in whatever way it is written (`Writes.normalizeExtension_eq`). A run of
changes replaces the extensions and adds to the names that are left out, so the
form is kept by each change and by any number of them
(`normal_layered`).
-/

namespace ExportAtlas

open Text

namespace Settings

variable {s t : Settings} {e body before after : List Char} {ext : String}

/-! ## The form of an extension -/

/-- An extension in its form. -/
structure IsExtension (e : List Char) : Prop where
  dotted : e.head? = some '.'
  trimmed : IsTrimmed e
  settled : ∀ c ∈ e, Settled c

theorem toList_normalizeExtension (ext : String) :
    (normalizeExtension ext).toList =
      if (lowerChars (trim ext.toList)).head? = some '.' then lowerChars (trim ext.toList)
      else '.' :: lowerChars (trim ext.toList) := by
  simp only [normalizeExtension, startsWith, lower, String.toList_ofList, beq_iff_eq]
  split
  · rw [String.toList_ofList]
  · simp

theorem settled_dot : Settled '.' := ⟨by decide, by decide⟩

/-- A dot in front of a trimmed text, or of none, is trimmed. -/
theorem isTrimmed_dot_cons (h : e ≠ [] → IsTrimmed e) : IsTrimmed ('.' :: e) where
  ne_nil := List.cons_ne_nil _ _
  head c hc := by
    obtain rfl : '.' = c := Option.some.inj hc
    rfl
  last c hc := by
    by_cases he : e = []
    · subst he
      obtain rfl : '.' = c := Option.some.inj hc
      rfl
    · rw [List.getLast?_cons_of_ne_nil he] at hc
      exact (h he).last c hc

/-- **Every extension is brought into its form.** -/
theorem isExtension_normalizeExtension (ext : String) :
    IsExtension (normalizeExtension ext).toList := by
  have hsettled := settled_of_mem_lowerChars (s := trim ext.toList)
  have htrimmed : lowerChars (trim ext.toList) ≠ [] → IsTrimmed (lowerChars (trim ext.toList)) :=
    fun hne => (isTrimmed_trim (mt lowerAfter_eq_nil_iff.mpr hne)).lowerChars
  rw [toList_normalizeExtension]
  split
  · rename_i hdot
    refine ⟨hdot, htrimmed ?_, hsettled⟩
    intro hnil
    rw [hnil] at hdot
    cases hdot
  · exact ⟨rfl, isTrimmed_dot_cons htrimmed, List.forall_mem_cons.mpr ⟨settled_dot, hsettled⟩⟩

/-- Blanks around a text and capital letters of ASCII in it are gone from its
lower case. -/
theorem lowerChars_trim_padded (htrimmed : IsTrimmed e) (hsettled : ∀ c ∈ e, Settled c)
    (hbody : body.map Char.toLower = e.map Char.toLower)
    (hbefore : ∀ c ∈ before, isBlank c = true) (hafter : ∀ c ∈ after, isBlank c = true) :
    lowerChars (trim (before ++ (body ++ after))) = e := by
  rw [(htrimmed.of_toLower hbody).trim_eq hbefore hafter]
  exact lowerChars_of_toLower hsettled hbody

/-- How an extension may be written: its ASCII letters in either case, and
without its dot unless what follows that begins with a dot or a blank. -/
inductive Writes (e : List Char) : List Char → Prop
  | dotted {body : List Char} (hbody : body.map Char.toLower = e.map Char.toLower) : Writes e body
  | undotted {rest body : List Char} (he : e = '.' :: rest)
    (hhead : ∀ c ∈ rest.head?, c ≠ '.' ∧ isBlank c = false)
    (hbody : body.map Char.toLower = rest.map Char.toLower) : Writes e body

/-- **Whichever way an extension is written**, with blanks around it or without,
it is brought into the form in which it is kept. -/
theorem Writes.normalizeExtension_eq (h : Writes e body) (he : IsExtension e) (hlong : e ≠ ['.'])
    (hbefore : ∀ c ∈ before, isBlank c = true) (hafter : ∀ c ∈ after, isBlank c = true) :
    normalizeExtension (String.ofList (before ++ (body ++ after))) = String.ofList e := by
  rw [← String.toList_inj, toList_normalizeExtension, String.toList_ofList, String.toList_ofList]
  cases h with
  | dotted hbody =>
    rw [lowerChars_trim_padded he.trimmed he.settled hbody hbefore hafter, if_pos he.dotted]
  | undotted heq hhead hbody =>
    rename_i rest
    subst heq
    have hne : rest ≠ [] := by
      rintro rfl
      exact hlong rfl
    have htrimmed : IsTrimmed rest := by
      refine ⟨hne, fun c hc => (hhead c hc).2, fun c hc => he.trimmed.last c ?_⟩
      rwa [List.getLast?_cons_of_ne_nil hne]
    have hsettled := (List.forall_mem_cons.mp he.settled).2
    rw [lowerChars_trim_padded htrimmed hsettled hbody hbefore hafter, if_neg]
    exact fun hdot => (hhead '.' hdot).1 rfl

/-- **An extension in its form is kept as it is.** -/
theorem IsExtension.normalizeExtension_eq (h : IsExtension ext.toList) :
    normalizeExtension ext = ext := by
  have hlower : lowerChars (trim ([] ++ (ext.toList ++ []))) = ext.toList :=
    lowerChars_trim_padded h.trimmed h.settled rfl nofun nofun
  rw [List.nil_append, List.append_nil] at hlower
  rw [← String.toList_inj, toList_normalizeExtension, hlower, if_pos h.dotted]

/-! ## Lists of extensions -/

/-- **The extensions kept** are those in their form, each once, but for a dot
alone. -/
theorem normalizeExtensions_eq (exts : List String) :
    normalizeExtensions exts = ((exts.map normalizeExtension).filter (· ≠ ".")).eraseDups := by
  have hadd := foldl_addNew [] ((exts.map normalizeExtension).filter (· ≠ "."))
  simp only [List.not_mem_nil, not_false_eq_true, decide_true, List.filter_true,
    List.nil_append] at hadd
  rw [← hadd, List.foldl_filter, List.foldl_map]
  refine congrArg (fun add => exts.foldl add []) (funext fun kept => funext fun ext => ?_)
  by_cases hdot : normalizeExtension ext = "." <;> simp [hdot]

/-- An extension as it is listed: its form, with something behind the dot. -/
structure IsNormal (e : String) : Prop where
  fixed : normalizeExtension e = e
  dotted : startsWith e '.' = true
  trimmed : trim e.toList = e.toList
  lowered : lower e = e
  long : 1 < e.utf8ByteSize

theorem IsExtension.isNormal (h : IsExtension ext.toList) (hlong : ext ≠ ".") : IsNormal ext where
  fixed := h.normalizeExtension_eq
  dotted := by rw [startsWith, h.dotted, beq_self_eq_true]
  trimmed := by
    have htrim := h.trimmed.trim_eq (a := []) (b := []) nofun nofun
    rwa [List.nil_append, List.append_nil] at htrim
  lowered := by
    rw [lower, lowerChars_of_toLower h.settled rfl, String.ofList_toList]
  long := by
    obtain ⟨rest, hrest⟩ := List.head?_eq_some_iff.mp h.dotted
    have hext : ext = "." ++ String.ofList rest := by
      rw [← String.toList_inj, hrest]
      simp
    have hne : String.ofList rest ≠ "" := by
      intro hnil
      rw [hnil, String.append_empty] at hext
      exact hlong hext
    have hsize : (String.ofList rest).utf8ByteSize ≠ 0 := mt String.utf8ByteSize_eq_zero_iff.mp hne
    have hdot : ".".utf8ByteSize = 1 := rfl
    rw [hext, String.utf8ByteSize_append, hdot]
    omega

theorem isExtension_of_mem (h : ext ∈ normalizeExtensions exts) :
    IsExtension ext.toList ∧ ext ≠ "." := by
  rw [normalizeExtensions_eq, List.mem_eraseDups, List.mem_filter] at h
  obtain ⟨hmem, hlong⟩ := h
  obtain ⟨given, -, rfl⟩ := List.mem_map.mp hmem
  exact ⟨isExtension_normalizeExtension given, by simpa using hlong⟩

/-! ## Layers of changes -/

/-- The settings with changes made one after the other. -/
def layered (s : Settings) (layers : List Overrides) : Settings := layers.foldl apply s

/-- The extensions of the settings have been brought into their form. -/
def Normalized (s : Settings) : Prop := ∃ exts, s.extensions = normalizeExtensions exts

theorem normalized_standard : Normalized standard := ⟨standard.extensions, by decide +kernel⟩

theorem normalized_of_parse? {content : String} (h : parse? content = some s) : Normalized s := by
  obtain ⟨toml, -, h⟩ := Option.bind_eq_some_iff.mp h
  cases toml with
  | table entries =>
    rw [ofToml?] at h
    obtain ⟨exts, -, h⟩ := Option.bind_eq_some_iff.mp h
    obtain ⟨ignore, -, h⟩ := Option.bind_eq_some_iff.mp h
    obtain ⟨maxDepth, -, h⟩ := Option.bind_eq_some_iff.mp h
    obtain ⟨respectGitignore, -, h⟩ := Option.bind_eq_some_iff.mp h
    exact ⟨exts, congrArg extensions (Option.some.inj h).symm⟩
  | _ => cases h

/-- A change keeps the extensions or brings others into their form. -/
theorem Normalized.apply (h : Normalized s) (o : Overrides) : Normalized (s.apply o) := by
  by_cases ho : o.extensions.isEmpty = true
  · obtain ⟨exts, hexts⟩ := h
    exact ⟨exts, by rw [Settings.apply, if_pos ho, hexts]⟩
  · exact ⟨o.extensions, by rw [Settings.apply, if_neg ho]⟩

theorem Normalized.layered (h : Normalized s) (layers : List Overrides) :
    Normalized (s.layered layers) := by
  induction layers generalizing s with
  | nil => exact h
  | cons o layers ih => exact ih (h.apply o)

theorem ignore_apply (s : Settings) (o : Overrides) :
    (s.apply o).ignore = s.ignore ++ (o.ignore.filter fun name => name ∉ s.ignore).eraseDups :=
  foldl_addNew s.ignore o.ignore

/-- **The names that are left out** after some changes: those from before, and
behind them the new ones in the order in which they came. -/
theorem ignore_layered (s : Settings) (layers : List Overrides) :
    (s.layered layers).ignore = s.ignore ++
      ((layers.flatMap Overrides.ignore).filter fun name => name ∉ s.ignore).eraseDups := by
  have hadded : (s.layered layers).ignore = (layers.flatMap Overrides.ignore).foldl
      (fun kept name => if name ∈ kept then kept else kept ++ [name]) s.ignore := by
    induction layers generalizing s with
    | nil => rfl
    | cons o layers ih => rw [List.flatMap_cons, List.foldl_append]; exact ih (s.apply o)
  rw [hadded, foldl_addNew]

theorem eq_of_fields (hextensions : s.extensions = t.extensions) (hignore : s.ignore = t.ignore)
    (hdepth : s.maxDepth = t.maxDepth) (hgit : s.respectGitignore = t.respectGitignore) :
    s = t := by
  cases s
  cases t
  simp_all

/-- **A change made again changes nothing.** -/
theorem apply_apply (s : Settings) (o : Overrides) : (s.apply o).apply o = s.apply o := by
  have hextensions : ((s.apply o).apply o).extensions = (s.apply o).extensions := by
    simp only [Settings.apply]
    split <;> rfl
  have hignore : ((s.apply o).apply o).ignore = (s.apply o).ignore := by
    rw [ignore_apply (s.apply o), List.filter_eq_nil_iff.mpr, List.eraseDups_nil, List.append_nil]
    -- all names of the change are there
    intro name hname
    by_cases hold : name ∈ s.ignore <;> simp [ignore_apply, hname, hold]
  have hdepth : ((s.apply o).apply o).maxDepth = (s.apply o).maxDepth := by
    cases hmax : o.maxDepth <;> simp [Settings.apply, hmax]
  have hgit : ((s.apply o).apply o).respectGitignore = (s.apply o).respectGitignore := by
    simp [Settings.apply]
  exact eq_of_fields hextensions hignore hdepth hgit

/-- **Settings under changes.** Whatever changes are made to the standard
settings or to those of a file, every extension listed is in its form, stands
once and is found in each way of writing it; the names that are left out are
those from before, and behind them the new ones, each once; and a change made
again changes nothing. -/
theorem normal_layered (h : s = standard ∨ ∃ content, parse? content = some s)
    (layers : List Overrides) :
    (∀ e ∈ (s.layered layers).extensions, IsNormal e) ∧
    (s.layered layers).extensions.Nodup ∧
    (∀ e ∈ (s.layered layers).extensions, ∀ before body after : List Char,
      Writes e.toList body → (∀ c ∈ before, isBlank c = true) → (∀ c ∈ after, isBlank c = true) →
        (s.layered layers).allowsExtension (String.ofList (before ++ (body ++ after))) = true) ∧
    (s.layered layers).ignore = s.ignore ++
      ((layers.flatMap Overrides.ignore).filter fun name => name ∉ s.ignore).eraseDups ∧
    ∀ o, ((s.layered layers).apply o).apply o = (s.layered layers).apply o := by
  have hstart : Normalized s := by
    rcases h with rfl | ⟨content, hparse⟩
    · exact normalized_standard
    · exact normalized_of_parse? hparse
  obtain ⟨exts, hexts⟩ := hstart.layered layers
  rw [hexts]
  refine ⟨?_, ?_, ?_, ignore_layered s layers, apply_apply _⟩
  · intro e he
    obtain ⟨hform, hlong⟩ := isExtension_of_mem he
    exact hform.isNormal hlong
  · rw [normalizeExtensions_eq]
    exact nodup_eraseDups _
  · intro e he before body after hbody hbefore hafter
    obtain ⟨hform, hlong⟩ := isExtension_of_mem he
    have hbare : e.toList ≠ ['.'] := fun heq => hlong (by rw [← String.toList_inj, heq]; rfl)
    rw [allowsExtension, hbody.normalizeExtension_eq hform hbare hbefore hafter,
      String.ofList_toList, hexts, List.contains_iff_mem]
    exact he

/-- The settings of a file that names two extensions. -/
def moduleSettings : Settings := { standard with extensions := [".mjs", ".ts"] }

/-- Changes of which the second keeps the extensions of the first. -/
def vueLayers : List Overrides :=
  [⟨["Vue ", ".VUE"], ["dist", "generated"], none, false⟩, ⟨[], ["tmp", "generated"], some 2, true⟩]

/-- The extension is written with blanks and capitals, and without its dot. -/
theorem normal_layered_vue :
    parse? "extensions = [\"mjs\", \".TS\"]" = some moduleSettings ∧
    (moduleSettings.layered vueLayers).extensions = [".vue"] ∧ IsNormal ".vue" ∧
    Writes ".vue".toList ['V', 'u', 'E'] ∧
    (moduleSettings.layered vueLayers).allowsExtension " VuE\n" = true ∧
    (moduleSettings.layered vueLayers).ignore = standard.ignore ++ ["generated", "tmp"] := by
  have hparse : parse? "extensions = [\"mjs\", \".TS\"]" = some moduleSettings := by
    decide +kernel
  have hlisted : (moduleSettings.layered vueLayers).extensions = [".vue"] := by decide +kernel
  have hmem : ".vue" ∈ (moduleSettings.layered vueLayers).extensions := by
    rw [hlisted]
    exact List.mem_singleton_self _
  have hform : ".vue".toList = '.' :: ['v', 'u', 'e'] := by decide
  have hhead : ∀ c ∈ ['v', 'u', 'e'].head?, c ≠ '.' ∧ isBlank c = false := by
    intro c hc
    obtain rfl : 'v' = c := Option.some.inj hc
    exact ⟨by decide, by decide⟩
  have hwrites : Writes ".vue".toList ['V', 'u', 'E'] := .undotted hform hhead (by decide)
  have htext : " VuE\n" = String.ofList ([' '] ++ (['V', 'u', 'E'] ++ ['\n'])) := by decide
  obtain ⟨hnormal, -, hallows, hignore, -⟩ := normal_layered (.inr ⟨_, hparse⟩) vueLayers
  refine ⟨hparse, hlisted, hnormal _ hmem, hwrites, ?_, ?_⟩
  · rw [htext]
    exact hallows _ hmem [' '] _ ['\n'] hwrites (List.forall_mem_singleton.mpr rfl)
      (List.forall_mem_singleton.mpr rfl)
  · rw [hignore]
    decide +kernel

end Settings

end ExportAtlas
