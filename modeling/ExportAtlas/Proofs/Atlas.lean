import ExportAtlas.Atlas
import ExportAtlas.Proofs.Path
import ExportAtlas.Proofs.Sections
/-!
# Files put into sections

To put files into sections is to push each under its key
(`Atlas.group_eq_ofPushes`), so the sections part the files by their keys and
keep their order. The key of a file under the root is told by the components
that follow those of the root, and all other files share one key
(`Atlas.sectionKey_of_components`, `Atlas.sectionKey_of_outside`).
-/

namespace ExportAtlas

namespace Atlas

variable {root : Path} {strategy : Strategy} {file : FileRecord} {files : List FileRecord}
  {name : String}

/-! ## Keys -/

theorem sectionKey_of_components {parts : List Component}
    (h : file.path.components = root.components ++ parts) :
    sectionKey root strategy file = strategy.sectionOf (parts.map Component.display) := by
  have hparts : file.relativeParts? root = some (parts.map Component.display) := by
    rw [FileRecord.relativeParts?, Path.relativeParts?, Path.dropPrefix?_eq_some_iff.mpr h]
    rfl
  rw [sectionKey, hparts]

theorem sectionKey_of_outside (h : ¬ root.components <+: file.path.components) :
    sectionKey root strategy file = Strategy.rootSection := by
  have hparts : file.relativeParts? root = none := by
    rw [FileRecord.relativeParts?, Path.relativeParts?, Path.dropPrefix?_eq_none_iff.mpr h]
    rfl
  rw [sectionKey, hparts]

/-! ## Sections by key -/

/-- The pushes that put files into sections. -/
def pushes (root : Path) (strategy : Strategy) (files : List FileRecord) :
    List (String × FileRecord) :=
  files.map fun file => (sectionKey root strategy file, file)

theorem group_eq_ofPushes (root : Path) (strategy : Strategy) (files : List FileRecord) :
    group root strategy files = Sections.ofPushes (pushes root strategy files) := by
  rw [group, Sections.ofPushes, pushes, List.foldl_map]

theorem map_fst_pushes : (pushes root strategy files).map Prod.fst =
    files.map (sectionKey root strategy) := by
  rw [pushes, List.map_map]
  rfl

theorem map_snd_pushes : (pushes root strategy files).map Prod.snd = files := by
  rw [pushes, List.map_map]
  exact List.map_id files

theorem under_pushes : Sections.under (pushes root strategy files) name =
    files.filter fun file => sectionKey root strategy file == name := by
  rw [Sections.under, pushes, List.filter_map, List.map_map]
  exact List.map_id _

/-- **The sections part the files by their keys**, in the order in which the
keys come up. -/
theorem entries_group : (group root strategy files).entries =
    (files.map (sectionKey root strategy)).eraseDups.map fun name =>
      ⟨name, files.filter fun file => sectionKey root strategy file == name⟩ := by
  rw [group_eq_ofPushes, Sections.entries_ofPushes, map_fst_pushes]
  exact List.map_congr_left fun name _ => by rw [under_pushes]

theorem names_group : (group root strategy files).names =
    (files.map (sectionKey root strategy)).eraseDups := by
  rw [group_eq_ofPushes, Sections.names_ofPushes, map_fst_pushes]

theorem files_ne_nil_of_mem_group :
    ∀ s ∈ (group root strategy files).entries, s.files ≠ [] := by
  rw [group_eq_ofPushes]
  exact Sections.files_ne_nil_of_mem_entries

/-- **No file is lost and none added.** -/
theorem files_group_perm : (group root strategy files).files.Perm files := by
  have hperm := Sections.files_ofPushes (pushes root strategy files)
  rwa [map_snd_pushes, ← group_eq_ofPushes] at hperm

/-- **The first files of the sections stand in the order of the files.** -/
theorem firsts_group_sublist : (group root strategy files).firsts.Sublist files := by
  have hfirsts := Sections.firsts_ofPushes_sublist (pushes root strategy files)
  rwa [map_snd_pushes, ← group_eq_ofPushes] at hfirsts

/-- **To classify is to part the files by a key, in their order.** The key of
a file is the section that the strategy gives to the components behind those
of the root, and `_root` for a file outside of it. Sections stand in the order
in which their names come up; each holds the files with its name for a key,
in their order, and there are some; and all of them together hold the files.
There are routes for a project of one kind alone. -/
theorem classify_partition (root : Path) (files : List FileRecord) (kind : ProjectKind)
    (pageFolders : RouteTree) : ∃ key : FileRecord → String,
    (∀ file parts, file.path.components = root.components ++ parts →
      key file = (Strategy.ofKind kind).sectionOf (parts.map Component.display)) ∧
    (∀ file, ¬ root.components <+: file.path.components → key file = "_root") ∧
    (classify root files kind pageFolders).sections.names = (files.map key).eraseDups ∧
    (∀ s ∈ (classify root files kind pageFolders).sections.entries,
      s.files = (files.filter fun file => key file == s.name) ∧ s.files ≠ []) ∧
    (classify root files kind pageFolders).sections.files.Perm files ∧
    ((classify root files kind pageFolders).routes.isSome = true ↔ kind = .nextjs) := by
  refine ⟨sectionKey root (Strategy.ofKind kind), fun file parts => sectionKey_of_components,
    fun file => sectionKey_of_outside, names_group, fun s hs => ⟨?_, ?_⟩, files_group_perm, ?_⟩
  · rw [classify, entries_group] at hs
    obtain ⟨name, -, rfl⟩ := List.mem_map.mp hs
    rfl
  · exact files_ne_nil_of_mem_group s hs
  · rw [classify]
    cases kind <;> simp [Strategy.ofKind, Strategy.wantsRoutes]

end Atlas

end ExportAtlas
