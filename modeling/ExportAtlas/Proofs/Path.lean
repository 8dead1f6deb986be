import ExportAtlas.Path
import ExportAtlas.Proofs.Text.Pieces
import ExportAtlas.Proofs.Text.Utf8
/-!
# Paths and the names on them

A path is written as bytes and read as components. The path of a list of
names has these names as its components (`Path.components_ofNames`), as long
as each is one that a folder can list (`IsFileName`); so different lists have
different paths (`Path.ofNames_inj`), and the last name is the one that the
path ends in (`Path.fileName?_ofNames`). What lies under a root is told by
its components (`Path.dropPrefix?_eq_some_iff`), and these are known from
their texts where they are UTF-8 (`Component.ofText_display`).
-/

namespace ExportAtlas

open Text

/-- A name that a folder can list: one without slashes, and none of those that
stand for folders on a way. -/
structure IsFileName (name : List UInt8) : Prop where
  ne_nil : name ≠ []
  notMem_slash : Path.slash ∉ name
  ne_dot : name ≠ [Path.dot]
  ne_dots : name ≠ [Path.dot, Path.dot]

instance (name : List UInt8) : Decidable (IsFileName name) :=
  decidable_of_iff (name ≠ [] ∧ Path.slash ∉ name ∧ name ≠ [Path.dot] ∧
      name ≠ [Path.dot, Path.dot])
    ⟨fun ⟨hnil, hslash, hdot, hdots⟩ => ⟨hnil, hslash, hdot, hdots⟩,
      fun h => ⟨h.ne_nil, h.notMem_slash, h.ne_dot, h.ne_dots⟩⟩

namespace Path

variable {name ext : List UInt8} {names names' : List (List UInt8)}

theorem component?_of_isFileName (h : IsFileName name) : component? name = some (.name name) := by
  rw [component?, if_neg fun hstay => hstay.elim h.ne_nil h.ne_dot, if_neg h.ne_dots]

/-- Names behind slashes are the pieces between the slashes. -/
theorem splitOn_append_names (hname : slash ∉ name) (h : ∀ n ∈ names, IsFileName n) :
    splitOn slash (name ++ names.flatMap (slash :: ·)) = name :: names := by
  induction names generalizing name with
  | nil => rw [List.flatMap_nil, List.append_nil, splitOn_of_notMem hname]
  | cons n names ih =>
    rw [List.forall_mem_cons] at h
    rw [List.flatMap_cons, List.cons_append, splitOn_append_cons hname,
      ih h.1.notMem_slash h.2]

/-- **The path of names has these names as its components.** -/
theorem components_ofNames (h : ∀ n ∈ names, IsFileName n) :
    (ofNames names).components = .root :: names.map .name := by
  cases names with
  | nil => rfl
  | cons n names =>
    have hpieces := splitOn_append_names List.not_mem_nil h
    rw [List.nil_append] at hpieces
    have hnames : (n :: names).filterMap component? = (n :: names).map .name := by
      rw [← List.filterMap_eq_map]
      exact List.filterMap_congr fun n hn => component?_of_isFileName (h n hn)
    have hempty : component? [] = none := rfl
    have hbytes : ofNames (n :: names) = ⟨(n :: names).flatMap (slash :: ·)⟩ := rfl
    have hroot : (ofNames (n :: names)).isAbsolute = true := rfl
    rw [components, hroot, if_pos rfl, hbytes, hpieces, List.filterMap_cons_none hempty, hnames]

/-- **Different names make different paths.** -/
theorem ofNames_inj (h : ∀ n ∈ names, IsFileName n) (h' : ∀ n ∈ names', IsFileName n) :
    ofNames names = ofNames names' ↔ names = names' := by
  refine ⟨fun heq => ?_, fun heq => by rw [heq]⟩
  have hcomponents := congrArg components heq
  rw [components_ofNames h, components_ofNames h', List.cons.injEq] at hcomponents
  exact List.map_injective_iff.mpr (fun _ _ => Component.name.inj) hcomponents.2

/-- The path of names ends in the last of them. -/
theorem fileName?_ofNames (h : ∀ n ∈ names, IsFileName n) :
    (ofNames names).fileName? = names.getLast? := by
  rw [fileName?, components_ofNames h, List.getLast?_cons]
  cases hlast : names.getLast? <;> simp [List.getLast?_map, hlast]

/-! ## Under a root -/

section Prefix

variable {α : Type} [DecidableEq α] {l xs rest : List α}

/-- What remains behind a prefix is what follows it. -/
theorem dropPrefix?_eq_some_iff : dropPrefix? l xs = some rest ↔ xs = l ++ rest := by
  induction l generalizing xs with
  | nil => rw [dropPrefix?, Option.some.injEq, List.nil_append]
  | cons a l ih =>
    cases xs with
    | nil => exact ⟨nofun, nofun⟩
    | cons x xs =>
      rw [dropPrefix?, List.cons_append, List.cons.injEq]
      split
      · rename_i hx
        rw [ih]
        exact (and_iff_right hx.symm).symm
      · rename_i hx
        exact iff_of_false nofun fun h => hx h.1.symm

theorem dropPrefix?_eq_none_iff : dropPrefix? l xs = none ↔ ¬ l <+: xs := by
  rw [Option.eq_none_iff_forall_ne_some]
  constructor
  · rintro h ⟨rest, hrest⟩
    exact h rest (dropPrefix?_eq_some_iff.mpr hrest.symm)
  · intro h rest hrest
    exact h ⟨rest, (dropPrefix?_eq_some_iff.mp hrest).symm⟩

end Prefix

/-! ## Components as text -/

/-- The names on a path are names that a folder can list. -/
theorem isFileName_of_mem_components {p : Path} (h : .name name ∈ p.components) :
    IsFileName name := by
  have hsteps : Component.name name ∈ (splitOn slash p.bytes).filterMap component? := by
    rw [components] at h
    split at h
    · simpa using h
    · split at h <;> simpa using h
  obtain ⟨piece, hpiece, hname⟩ := List.mem_filterMap.mp hsteps
  rw [component?] at hname
  split at hname
  · cases hname
  rename_i hstay
  split at hname
  · cases hname
  rename_i hup
  obtain rfl := Component.name.inj (Option.some.inj hname)
  rw [not_or] at hstay
  exact ⟨hstay.1, notMem_of_mem_splitOn hpiece, hstay.2, hup⟩

end Path

namespace Component

variable {c : Component}

/-- A component that is UTF-8 if it is a name. -/
def IsLegible : Component → Prop
  | name bytes => Utf8.toString? bytes ≠ none
  | _ => True

instance : DecidablePred IsLegible := fun c =>
  match c with
  | name bytes => inferInstanceAs (Decidable (Utf8.toString? bytes ≠ none))
  | root | here | up => isTrue trivial

/-- The component that is shown as a text. -/
def ofText (s : String) : Component :=
  if s = "/" then .root
  else if s = "." then .here
  else if s = ".." then .up
  else .name (Utf8.ofString s)

/-- **A component of a path is known from its text**, if it is UTF-8. -/
theorem ofText_display {p : Path} (hmem : c ∈ p.components) (h : c.IsLegible) :
    ofText c.display = c := by
  cases c with
  | root => decide
  | here => decide
  | up => decide
  | name bytes =>
    have hname := Path.isFileName_of_mem_components hmem
    obtain ⟨s, hs⟩ := Option.ne_none_iff_exists'.mp h
    obtain rfl := Utf8.toString?_eq_some_iff.mp hs
    rw [display, Utf8.toStringLossy_ofString, ofText]
    split
    · rename_i hs
      exact absurd (by rw [hs]; decide) hname.notMem_slash
    split
    · rename_i hs
      exact absurd (by rw [hs]; decide) hname.ne_dot
    split
    · rename_i hs
      exact absurd (by rw [hs]; decide) hname.ne_dots
    · rfl

/-- **Only the root is shown with a slash** of the components of a path. -/
theorem slash_notMem_display {p : Path} (hmem : c ∈ p.components) (h : c ≠ .root) :
    '/' ∉ c.display.toList := by
  cases c with
  | root => exact absurd rfl h
  | here => decide
  | up => decide
  | name bytes =>
    intro hslash
    obtain ⟨b, hb, hcode⟩ := Utf8.mem_of_mem_toStringLossy (by decide) hslash
    have hname := Path.isFileName_of_mem_components hmem
    obtain rfl : b = Path.slash := UInt8.toNat_inj.mp hcode
    exact hname.notMem_slash hb

end Component

namespace Path

/-! ## Extensions -/

/-- **A name has what follows its last dot as its extension**, unless that dot
comes first. -/
theorem extensionOf?_eq_some_iff : extensionOf? name = some ext ↔
    ∃ stem, stem ≠ [] ∧ name = stem ++ dot :: ext ∧ dot ∉ ext := by
  constructor
  · intro h
    by_cases hmem : dot ∈ name.reverse
    · obtain ⟨after, before, hname, hafter⟩ := List.eq_append_cons_of_mem hmem
      rw [extensionOf?, hname, cutAt_append_cons hafter] at h
      simp only [List.isEmpty_iff] at h
      split at h
      · cases h
      · rename_i hbefore
        obtain rfl := Option.some.inj h
        refine ⟨before.reverse, fun hnil => hbefore (List.reverse_eq_nil_iff.mp hnil), ?_, ?_⟩
        · rw [← List.reverse_reverse name, hname]
          simp
        · exact fun hdot => hafter (List.mem_reverse.mp hdot)
    · rw [extensionOf?, cutAt_of_notMem hmem] at h
      cases h
  · rintro ⟨stem, hstem, rfl, hext⟩
    have hreverse : (stem ++ dot :: ext).reverse = ext.reverse ++ dot :: stem.reverse := by simp
    have hmem : dot ∉ ext.reverse := fun h => hext (List.mem_reverse.mp h)
    rw [extensionOf?, hreverse, cutAt_append_cons hmem]
    simp [hstem]

end Path

end ExportAtlas
