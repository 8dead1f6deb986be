import ExportAtlas.Proofs.Atlas
import ExportAtlas.Proofs.Strategy.Rows
/-!
# Sections that bear a label

The sections of a row bear its label: they are named by it, or by it and a
sub-folder (`bears`). Which label a key bears is what stands before its first
slash (`bears_iff`), so no two rows share a section, and the fallbacks stay
out of them: `Other` is no label, and a top-level folder that is called like
a label is one that leads to its row (`not_bears_fallback`). Hence the
sections that bear a label hold the files that its row takes first, and no
others (`files_bearing`).
-/

namespace ExportAtlas

namespace Strategy

variable {strategy : Strategy} {row : Row} {parts : List String} {label key : String}

/-- A key bears a label: it is the label, or begins with it and a slash. -/
def bears (label key : String) : Bool :=
  key == label || (label ++ "/").toList.isPrefixOf key.toList

/-- The label of the first row that takes a path. -/
def label? (strategy : Strategy) (parts : List String) : Option String :=
  (strategy.row? parts).map Row.label

/-- The labels of a strategy's rows. -/
def labels (strategy : Strategy) : List String := strategy.rows.map Row.label

/-! ## Which label a key bears -/

/-- **A key bears what stands before its first slash.** -/
theorem bears_iff (h : '/' ∉ label.toList) :
    bears label key = true ↔ (Text.cutAt '/' key.toList).1 = label.toList := by
  rw [bears, Bool.or_eq_true, beq_iff_eq, List.isPrefixOf_iff_prefix]
  have hlabel : (label ++ "/").toList = label.toList ++ ['/'] := String.toList_append
  rw [hlabel]
  constructor
  · rintro (rfl | ⟨rest, hrest⟩)
    · rw [Text.cutAt_of_notMem h]
    · rw [← hrest, List.append_assoc, List.singleton_append, Text.cutAt_append_cons h]
  · intro hcut
    by_cases hslash : '/' ∈ key.toList
    · obtain ⟨before, rest, hkey, hbefore⟩ := List.eq_append_cons_of_mem hslash
      rw [hkey, Text.cutAt_append_cons hbefore] at hcut
      exact .inr ⟨rest, by rw [hkey, ← hcut, List.append_assoc, List.singleton_append]⟩
    · rw [Text.cutAt_of_notMem hslash] at hcut
      exact .inl (String.toList_inj.mp hcut)

/-- A key without slashes bears one label at most, itself. -/
theorem eq_of_bears (h : '/' ∉ label.toList) (hkey : '/' ∉ key.toList)
    (hbears : bears label key = true) : key = label := by
  rw [bears_iff h, Text.cutAt_of_notMem hkey] at hbears
  exact String.toList_inj.mp hbears

/-- The section in a row bears its label, and no other. -/
theorem bears_sectionIn (hrow : row ∈ strategy.rows) (h : '/' ∉ label.toList) :
    bears label (strategy.sectionIn row parts) = true ↔ row.label = label := by
  have hslash := slash_notMem_label hrow
  have hcut : (Text.cutAt '/' (strategy.sectionIn row parts).toList).1 = row.label.toList := by
    rcases sectionIn_cases strategy row parts with hkey | ⟨folder, -, hkey⟩
    · rw [hkey, Text.cutAt_of_notMem hslash]
    · rw [hkey, cutAt_key hslash]
  rw [bears_iff h, hcut, String.toList_inj]

/-! ## The fallbacks bear no label -/

/-- A component of a path as it is shown: without slashes, unless it is the
root. -/
def IsShown (part : String) : Prop := '/' ∉ part.toList ∨ part = "/"

theorem slash_notMem_of_mem_labels (h : label ∈ strategy.labels) : '/' ∉ label.toList := by
  obtain ⟨row, hrow, rfl⟩ := List.mem_map.mp h
  exact slash_notMem_label hrow

/-- By server layer, a component that is called like a label leads to its
row. -/
theorem takes_of_label_mem (hrow : row ∈ expressRows) (h : row.label ∈ parts) :
    expressLike.takes parts row = true := by
  have hown : ∀ row ∈ expressRows, row.folders.contains (Text.lower row.label) = true := by decide
  exact List.any_eq_true.mpr ⟨row.label, h, hown row hrow⟩

theorem topLevelFolder_cases (parts : List String) :
    topLevelFolder parts = rootSection ∨ topLevelFolder parts ∈ parts := by
  match parts with
  | [] | [_] => exact .inl rfl
  | folder :: _ :: _ => exact .inr (List.mem_cons_self ..)

/-- **No fallback bears a label**, whatever the top-level folder is called. -/
theorem not_bears_fallback (hlabel : label ∈ strategy.labels) (hnone : strategy.row? parts = none)
    (hparts : ∀ part ∈ parts, IsShown part) :
    bears label (strategy.fallback parts) = false := by
  have hslash := slash_notMem_of_mem_labels hlabel
  obtain ⟨row, hrow, rfl⟩ := List.mem_map.mp hlabel
  rw [Bool.eq_false_iff]
  intro hbears
  cases strategy with
  | nextLike =>
    have hother : ∀ row ∈ nextRows, "Other" ≠ row.label := by decide
    have hcut : (Text.cutAt '/' (nextLike.fallback parts).toList).1 = "Other".toList := by
      have hkey : nextLike.fallback parts = "Other" ++ "/" ++ topLevelFolder parts := rfl
      rw [hkey, cutAt_key (by decide)]
    rw [bears_iff hslash, hcut, String.toList_inj] at hbears
    exact hother row hrow hbears
  | expressLike =>
    rw [fallback] at hbears
    rcases topLevelFolder_cases parts with htop | htop
    · have hroot : ∀ row ∈ expressRows, bears row.label rootSection = false := by decide
      rw [htop, hroot row hrow] at hbears
      cases hbears
    rcases hparts _ htop with hshown | hshown
    · rw [eq_of_bears hslash hshown hbears] at htop
      exact List.find?_eq_none.mp hnone row hrow (takes_of_label_mem hrow htop)
    · have hroot : ∀ row ∈ expressRows, bears row.label "/" = false := by decide
      rw [hshown, hroot row hrow] at hbears
      cases hbears
  | vanilla => cases hrow

/-- **The key of a path bears the label of the first row that takes it**, and
no other. -/
theorem bears_sectionOf (hlabel : label ∈ strategy.labels) (hparts : ∀ part ∈ parts, IsShown part) :
    bears label (strategy.sectionOf parts) = true ↔ strategy.label? parts = some label := by
  have hslash := slash_notMem_of_mem_labels hlabel
  rw [label?]
  cases hrow : strategy.row? parts with
  | some row =>
    rw [sectionOf_of_row hrow, bears_sectionIn (List.mem_of_find?_eq_some hrow) hslash,
      Option.map_some, Option.some.injEq]
  | none =>
    rw [sectionOf_of_none hrow, not_bears_fallback hlabel hrow hparts]
    exact iff_of_false nofun nofun

end Strategy

namespace Atlas

open Strategy (bears)

variable {root : Path} {strategy : Strategy} {file : FileRecord} {files : List FileRecord}
  {label : String}

/-- The label of the first row that takes a file. -/
def label? (root : Path) (strategy : Strategy) (file : FileRecord) : Option String :=
  (file.relativeParts? root).bind strategy.label?

theorem isShown_of_components {p : Path} {parts : List Component}
    (h : p.components = root.components ++ parts) :
    ∀ part ∈ parts.map Component.display, Strategy.IsShown part := by
  rintro _ hpart
  obtain ⟨c, hc, rfl⟩ := List.mem_map.mp hpart
  have hmem : c ∈ p.components := h ▸ List.mem_append_right _ hc
  by_cases hroot : c = .root
  · rw [hroot]
    exact .inr rfl
  · exact .inl (Component.slash_notMem_display hmem hroot)

theorem bears_sectionKey (hlabel : label ∈ strategy.labels)
    (h : root.components <+: file.path.components) :
    bears label (sectionKey root strategy file) = true ↔ label? root strategy file = some label := by
  obtain ⟨parts, hparts⟩ := h
  have hrelative : file.relativeParts? root = some (parts.map Component.display) := by
    rw [FileRecord.relativeParts?, Path.relativeParts?, Path.dropPrefix?_eq_some_iff.mpr hparts.symm]
    rfl
  rw [sectionKey_of_components hparts.symm, label?, hrelative, Option.bind_some]
  exact Strategy.bears_sectionOf hlabel (isShown_of_components hparts.symm)

/-- The files of some sections are those whose keys are their names. -/
theorem flatMap_files_filter_perm (root : Path) (strategy : Strategy) (files : List FileRecord)
    (p : String → Bool) :
    (((group root strategy files).entries.filter fun s => p s.name).flatMap Section.files).Perm
      (files.filter fun file => p (sectionKey root strategy file)) := by
  have hnames : (((files.map (sectionKey root strategy)).eraseDups).filter p).Nodup :=
    (nodup_eraseDups _).filter p
  have hkeys : ∀ file ∈ files.filter (fun file => p (sectionKey root strategy file)),
      sectionKey root strategy file ∈
        ((files.map (sectionKey root strategy)).eraseDups).filter p := by
    intro file hfile
    obtain ⟨hfile, hkey⟩ := List.mem_filter.mp hfile
    exact List.mem_filter.mpr ⟨List.mem_eraseDups.mpr (List.mem_map_of_mem hfile), hkey⟩
  refine List.Perm.trans (List.Perm.of_eq ?_) (flatMap_filter_perm hnames hkeys)
  rw [entries_group, List.filter_map, List.flatMap_map]
  refine List.flatMap_congr fun name hname => ?_
  -- where the name passes, so do the files under it
  have hpass : p name = true := (List.mem_filter.mp hname).2
  rw [List.filter_filter]
  refine List.filter_congr fun file _ => ?_
  by_cases hkey : sectionKey root strategy file = name
  · simp [hkey, hpass]
  · simp [hkey]

/-- **The sections that bear a label hold the files that its row takes first**,
of all files under the root, and no others. A file that no row takes falls back
on its top-level folder, and whatever that is called, its key bears no label. -/
theorem files_bearing (root : Path) (files : List FileRecord) (kind : ProjectKind)
    (pageFolders : RouteTree) (hfiles : ∀ file ∈ files, root.components <+: file.path.components)
    (hlabel : label ∈ (Strategy.ofKind kind).labels) :
    (((classify root files kind pageFolders).sections.entries.filter fun s =>
        bears label s.name).flatMap Section.files).Perm
      (files.filter fun file => label? root (Strategy.ofKind kind) file == some label) ∧
    ∀ (p : Path) (parts : List Component), p.components = root.components ++ parts →
      (Strategy.ofKind kind).row? (parts.map Component.display) = none →
      (Strategy.ofKind kind).sectionOf (parts.map Component.display) =
        (Strategy.ofKind kind).fallback (parts.map Component.display) ∧
      bears label ((Strategy.ofKind kind).fallback (parts.map Component.display)) = false := by
  refine ⟨?_, fun p parts hp hnone => ⟨Strategy.sectionOf_of_none hnone,
    Strategy.not_bears_fallback hlabel hnone (isShown_of_components hp)⟩⟩
  refine (flatMap_files_filter_perm root (Strategy.ofKind kind) files (bears label)).trans ?_
  refine List.Perm.of_eq (List.filter_congr fun file hfile => ?_)
  rw [Bool.eq_iff_iff, bears_sectionKey hlabel (hfiles file hfile), beq_iff_eq]

/-- Files of a server: one in a folder that is called like a label, one whose
folder no row has. -/
def serverFiles : List FileRecord :=
  [.of (.ofString "/srv/src/routes/a.js") Exports.empty,
    .of (.ofString "/srv/Routes/b.js") Exports.empty,
    .of (.ofString "/srv/Routers2/c.js") Exports.empty]

/-- The folder called like the label leads to its row. -/
theorem files_bearing_serverFiles :
    (∀ file ∈ serverFiles, (Path.ofString "/srv").components <+: file.path.components) ∧
    "Routes" ∈ (Strategy.ofKind .express).labels ∧
    (((classify (.ofString "/srv") serverFiles .express .empty).sections.entries.filter fun s =>
      bears "Routes" s.name).flatMap Section.files).Perm
        (serverFiles.filter fun file =>
          label? (.ofString "/srv") (Strategy.ofKind .express) file == some "Routes") ∧
    (serverFiles.filter fun file =>
      label? (.ofString "/srv") (Strategy.ofKind .express) file == some "Routes") =
        serverFiles.take 2 := by
  have hfiles : ∀ file ∈ serverFiles,
      (Path.ofString "/srv").components <+: file.path.components := by decide +kernel
  have hlabel : "Routes" ∈ (Strategy.ofKind .express).labels := by decide
  exact ⟨hfiles, hlabel, (files_bearing _ serverFiles .express .empty hfiles hlabel).1,
    by decide +kernel⟩

end Atlas

end ExportAtlas
