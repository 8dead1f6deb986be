import ExportAtlas.Proofs.Atlas
/-!
# Sections by top-level folder

Two files share a section exactly if they have one key (`Atlas.share_iff`). By
top-level folder alone, the key of a file is the text of its top-level folder,
and `_root` where it lies in none. So files share a section if they have the same
top-level folder or none (`Atlas.share_iff_of_vanilla`); and also where texts do
not tell folders apart (`Alike`): a folder that is called `_root` has the files
beside it in its section, and two folders whose names are not UTF-8 may be shown
alike.
-/

namespace ExportAtlas

namespace Strategy

variable {c d : Component} {parts : List Component}

/-- The top-level folder on the way to a file under the root; none if the file
lies directly there. -/
def topFolder? : (parts : List Component) → Option Component
  | folder :: _ :: _ => some folder
  | _ => none

theorem topLevelFolder_map_display (parts : List Component) :
    topLevelFolder (parts.map Component.display) =
      ((topFolder? parts).map Component.display).getD rootSection := by
  match parts with
  | [] | [_] | _ :: _ :: _ => rfl

theorem topFolder?_mem (h : topFolder? parts = some c) : c ∈ parts := by
  match parts with
  | [] | [_] => cases h
  | folder :: _ :: _ =>
    obtain rfl := Option.some.inj h
    exact List.mem_cons_self ..

/-- Different top-level folders, or one and none, that are not told apart by their
texts. -/
def Alike : Option Component → Option Component → Prop
  | none, none => False
  | some c, none | none, some c => c.display = rootSection
  | some c, some d => c ≠ d ∧ c.display = d.display

/-- **Texts are the same** where folders are, and where they are alike. -/
theorem getD_display_eq_iff (x y : Option Component) :
    (x.map Component.display).getD rootSection = (y.map Component.display).getD rootSection ↔
      x = y ∨ Alike x y := by
  cases x with
  | none =>
    cases y with
    | none => simp
    | some d => simp [Alike, eq_comm]
  | some c =>
    cases y with
    | none => simp [Alike]
    | some d =>
      simp only [Option.map_some, Option.getD_some, Option.some.injEq, Alike]
      by_cases hcd : c = d
      · simp [hcd]
      · simp [hcd]

/-- The folder that is called like the section of files in no folder. -/
def rootNamed : Component := .name (Text.Utf8.ofString rootSection)

/-- **A component is known from its text**, so only one is shown as `_root`. -/
theorem display_eq_rootSection_iff {p : Path} (hmem : c ∈ p.components) (h : c.IsLegible) :
    c.display = rootSection ↔ c = rootNamed := by
  constructor
  · intro hroot
    rw [← Component.ofText_display hmem h, hroot]
    decide
  · rintro rfl
    decide

/-- **Only a folder called `_root` is like no folder**, where names are UTF-8, and
no two folders are alike. -/
theorem alike_iff_of_isLegible {p q : Path} {x y : Option Component}
    (hx : ∀ c ∈ x, c ∈ p.components ∧ c.IsLegible) (hy : ∀ c ∈ y, c ∈ q.components ∧ c.IsLegible) :
    Alike x y ↔ x = some rootNamed ∧ y = none ∨ x = none ∧ y = some rootNamed := by
  cases x with
  | none =>
    cases y with
    | none => simp [Alike]
    | some d =>
      obtain ⟨hmem, hlegible⟩ := hy d rfl
      simp [Alike, display_eq_rootSection_iff hmem hlegible]
  | some c =>
    obtain ⟨hmem, hlegible⟩ := hx c rfl
    cases y with
    | none => simp [Alike, display_eq_rootSection_iff hmem hlegible]
    | some d =>
      obtain ⟨hmem', hlegible'⟩ := hy d rfl
      refine iff_of_false (fun ⟨hne, hdisplay⟩ => hne ?_) (by simp)
      rw [← Component.ofText_display hmem hlegible, hdisplay,
        Component.ofText_display hmem' hlegible']

end Strategy

namespace Atlas

open Strategy (topFolder? Alike rootNamed)

variable {root : Path} {strategy : Strategy} {files : List FileRecord} {file file' : FileRecord}
  {parts parts' : List Component}

/-- **Files share a section exactly if they have one key.** -/
theorem share_iff (hfile : file ∈ files) (hfile' : file' ∈ files) :
    (∃ s ∈ (group root strategy files).entries, file ∈ s.files ∧ file' ∈ s.files) ↔
      sectionKey root strategy file = sectionKey root strategy file' := by
  simp only [entries_group, List.mem_map, List.mem_eraseDups]
  constructor
  · rintro ⟨_, ⟨name, -, rfl⟩, hin, hin'⟩
    rw [beq_iff_eq.mp (List.mem_filter.mp hin).2, beq_iff_eq.mp (List.mem_filter.mp hin').2]
  · intro hkey
    refine ⟨_, ⟨_, ⟨file, hfile, rfl⟩, rfl⟩, ?_, ?_⟩
    · exact List.mem_filter.mpr ⟨hfile, beq_self_eq_true _⟩
    · exact List.mem_filter.mpr ⟨hfile', beq_iff_eq.mpr hkey.symm⟩

/-- **By top-level folder, files share a section** if they lie in the same one or
in none, and where their folders are alike. With UTF-8 names that is a folder
called `_root` and none, and no other two. -/
theorem share_iff_of_vanilla (root : Path) (files : List FileRecord) (kind : ProjectKind)
    (pageFolders : RouteTree) (hkind : Strategy.ofKind kind = .vanilla) (hfile : file ∈ files)
    (hfile' : file' ∈ files) (hparts : file.path.components = root.components ++ parts)
    (hparts' : file'.path.components = root.components ++ parts') :
    ((∃ s ∈ (classify root files kind pageFolders).sections.entries,
        file ∈ s.files ∧ file' ∈ s.files) ↔
      topFolder? parts = topFolder? parts' ∨ Alike (topFolder? parts) (topFolder? parts')) ∧
    ((∀ c ∈ topFolder? parts, c.IsLegible) → (∀ c ∈ topFolder? parts', c.IsLegible) →
      (Alike (topFolder? parts) (topFolder? parts') ↔
        topFolder? parts = some rootNamed ∧ topFolder? parts' = none ∨
        topFolder? parts = none ∧ topFolder? parts' = some rootNamed)) := by
  refine ⟨?_, fun hlegible hlegible' => ?_⟩
  · rw [classify, share_iff hfile hfile', hkind, sectionKey_of_components hparts,
      sectionKey_of_components hparts', Strategy.sectionOf, Strategy.sectionOf,
      Strategy.topLevelFolder_map_display, Strategy.topLevelFolder_map_display,
      Strategy.getD_display_eq_iff]
  · refine Strategy.alike_iff_of_isLegible (p := file.path) (q := file'.path)
      (fun c hc => ⟨?_, hlegible c hc⟩) (fun c hc => ⟨?_, hlegible' c hc⟩)
    · rw [hparts]
      exact List.mem_append_right _ (Strategy.topFolder?_mem hc)
    · rw [hparts']
      exact List.mem_append_right _ (Strategy.topFolder?_mem hc)

/-- Files of a project: two beneath one folder, one beside it. -/
def toolFiles : List FileRecord :=
  [.of (.ofString "/repo/src/main.ts") Exports.empty,
    .of (.ofString "/repo/src/lib/format.ts") Exports.empty,
    .of (.ofString "/repo/index.ts") Exports.empty]

/-- The two files beneath `src` share a section. -/
theorem share_iff_of_vanilla_tools :
    Strategy.ofKind .react = .vanilla ∧
    (∃ s ∈ (classify (.ofString "/repo") toolFiles .react .empty).sections.entries,
      toolFiles[0] ∈ s.files ∧ toolFiles[1] ∈ s.files) ∧
    (classify (.ofString "/repo") toolFiles .react .empty).sections.names = ["src", "_root"] := by
  have hparts : toolFiles[0].path.components = (Path.ofString "/repo").components ++
      [.name (Text.Utf8.ofString "src"), .name (Text.Utf8.ofString "main.ts")] := by decide +kernel
  have hparts' : toolFiles[1].path.components = (Path.ofString "/repo").components ++
      [.name (Text.Utf8.ofString "src"), .name (Text.Utf8.ofString "lib"),
        .name (Text.Utf8.ofString "format.ts")] := by decide +kernel
  refine ⟨rfl, ?_, by decide +kernel⟩
  exact (share_iff_of_vanilla _ toolFiles .react .empty rfl (List.getElem_mem _)
    (List.getElem_mem _) hparts hparts').1.mpr (.inl rfl)

/-- A file directly under the root, and one beneath a folder called `_root`. -/
def rootedFiles : List FileRecord :=
  [.of (.ofString "/repo/a.ts") Exports.empty, .of (.ofString "/repo/_root/b.ts") Exports.empty]

/-- **A folder called `_root` is not kept apart** from the files beside it. -/
theorem rooted_share :
    topFolder? [.name (Text.Utf8.ofString "a.ts")] = none ∧
    topFolder? [rootNamed, .name (Text.Utf8.ofString "b.ts")] = some rootNamed ∧
    (classify (.ofString "/repo") rootedFiles .vanilla .empty).sections.entries =
      [⟨"_root", rootedFiles⟩] := by
  decide +kernel

end Atlas

end ExportAtlas
