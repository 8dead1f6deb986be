import ExportAtlas.Project
import ExportAtlas.Proofs.Atlas
import ExportAtlas.Proofs.SourceFiles.WithoutRules
/-!
# The files of an atlas

An atlas holds the source files that can be read (`Project.mem_records`), and
passes over the others without a gap or a change of order
(`Project.map_path_records_sublist`). To put them into sections loses none, so
what is read off the atlas can be told from the disk (`Project.atlas_holdsFiles`).
-/

namespace ExportAtlas

open Text

namespace Project

variable {d : Disk} {place root : Location} {places : List Location} {file : FileRecord}

/-! ## One file -/

/-- **The record of a file at a place**: its path, the last name on the way
there, and what its text exports. A text with a null character has no record,
and neither have bytes that are no text, or a file that cannot be read. -/
structure IsRecordOf (d : Disk) (place : Location) (file : FileRecord) : Prop where
  path : file.path = Path.ofNames place
  name : ∃ name, place.getLast? = some name ∧ file.name = Utf8.toStringLossy name
  text : ∃ s, d.entry? place = some (.file (.ok (Utf8.ofString s))) ∧ '\x00' ∉ s.toList ∧
    file.exports = Exports.ofSource s

theorem sourceText?_eq_some_iff {bytes : List UInt8} {s : String} :
    sourceText? bytes = some s ↔ bytes = Utf8.ofString s ∧ '\x00' ∉ s.toList := by
  rw [sourceText?, Option.filter_eq_some_iff, Utf8.toString?_eq_some_iff]
  simp

theorem path_of_record? (h : record? d place = some file) : file.path = Path.ofNames place := by
  rw [record?] at h
  split at h
  · obtain ⟨s, -, rfl⟩ := Option.map_eq_some_iff.mp h
    rfl
  · cases h

/-- A file is not the root, so its place has a last name. -/
theorem getLast?_of_file {content : Except FileProblem (List UInt8)}
    (h : d.entry? place = some (.file content)) :
    ∃ name, place.getLast? = some name := by
  cases place with
  | nil => cases h
  | cons name way => exact ⟨_, List.getLast?_cons⟩

/-- **What is read at a place is the record of the file there.** -/
theorem record?_eq_some_iff (hd : d.WellFormed) :
    record? d place = some file ↔ IsRecordOf d place file := by
  constructor
  · intro h
    have hpath := path_of_record? h
    rw [record?] at h
    split at h
    · rename_i bytes hbytes
      obtain ⟨s, hs, rfl⟩ := Option.map_eq_some_iff.mp h
      obtain ⟨rfl, hnull⟩ := sourceText?_eq_some_iff.mp hs
      obtain ⟨name, hname⟩ := getLast?_of_file hbytes
      refine ⟨hpath, ⟨name, hname, ?_⟩, ⟨s, hbytes, hnull, rfl⟩⟩
      rw [FileRecord.of, Path.fileName?_ofNames (hd.fileNames.of_descend? hbytes), hname]
      rfl
    · cases h
  · rintro ⟨hpath, ⟨name, hlast, hname⟩, s, hbytes, hnull, hexports⟩
    rw [record?, hbytes]
    simp only
    rw [sourceText?_eq_some_iff.mpr ⟨rfl, hnull⟩, Option.map_some, FileRecord.of,
      Path.fileName?_ofNames (hd.fileNames.of_descend? hbytes), hlast, ← hpath, ← hexports]
    rw [Option.map_some, Option.getD_some, ← hname]

/-! ## All files -/

theorem mem_records (hd : d.WellFormed) :
    file ∈ records d places ↔ ∃ place ∈ places, IsRecordOf d place file := by
  rw [records, List.mem_filterMap]
  exact exists_congr fun place => and_congr_right fun _ => record?_eq_some_iff hd

/-- **Files that cannot be read leave no trace**, and the others stay in order. -/
theorem map_path_records_sublist :
    ((records d places).map FileRecord.path).Sublist (places.map Path.ofNames) := by
  induction places with
  | nil => exact List.Sublist.slnil
  | cons place places ih =>
    rw [records, List.map_cons]
    cases hfile : record? d place with
    | none =>
      rw [List.filterMap_cons_none hfile]
      exact ih.cons _
    | some file =>
      rw [List.filterMap_cons_some hfile, List.map_cons, path_of_record? hfile]
      exact ih.cons_cons _

/-- Different source files have different paths. -/
theorem nodup_map_ofNames_files (hd : d.WellFormed) (folder : Location) (excludes : Option Path)
    (settings : Settings) (root : Location) :
    ((files d folder excludes settings root).map Path.ofNames).Nodup := by
  have hnames : ∀ place ∈ files d folder excludes settings root, ∀ name ∈ place,
      IsFileName name := by
    intro place hmem
    obtain ⟨content, hfile⟩ := Search.exists_file_of_mem_files hd.distinct hmem
    exact hd.fileNames.of_descend? hfile
  refine (Search.nodup_files hd.distinct).map_on fun place hplace place' hplace' heq => ?_
  exact (Path.ofNames_inj (hnames place hplace) (hnames place' hplace')).mp heq

/-! ## The atlas -/

/-- Sections hold the files at places: those that can be read, and no others. -/
structure HoldsFiles (d : Disk) (places : List Location) (sections : Sections) : Prop where
  mem : ∀ file, file ∈ sections.files ↔ ∃ place ∈ places, IsRecordOf d place file
  /-- No two files share a path. -/
  nodup : (sections.files.map FileRecord.path).Nodup
  files_ne_nil : ∀ s ∈ sections.entries, s.files ≠ []
  /-- The files of a section stand in the order of the places. -/
  inOrder : ∀ s ∈ sections.entries, (s.files.map FileRecord.path).Sublist (places.map Path.ofNames)
  /-- The sections stand in the order of the places of their first files. -/
  sectionsInOrder : ((sections.entries.filterMap fun s => s.files.head?).map
    FileRecord.path).Sublist (places.map Path.ofNames)

/-- To put the files at places into sections is to hold them. -/
theorem holdsFiles_group (hd : d.WellFormed) (hnodup : (places.map Path.ofNames).Nodup)
    (path : Path) (strategy : Strategy) :
    HoldsFiles d places (Atlas.group path strategy (records d places)) where
  mem := by
    intro file
    rw [Atlas.files_group_perm.mem_iff, mem_records hd]
  nodup := by
    rw [(Atlas.files_group_perm.map FileRecord.path).nodup_iff]
    exact hnodup.sublist map_path_records_sublist
  files_ne_nil := Atlas.files_ne_nil_of_mem_group
  inOrder := by
    intro s hs
    rw [Atlas.entries_group] at hs
    obtain ⟨name, -, rfl⟩ := List.mem_map.mp hs
    exact (List.filter_sublist.map FileRecord.path).trans map_path_records_sublist
  sectionsInOrder := (Atlas.firsts_group_sublist.map FileRecord.path).trans map_path_records_sublist

/-- **An atlas holds the source files that can be read**, each once, in the
order of the walk, and its sections stand in that order too. There is an atlas
of every project with source files, even if none of them can be read, and a
project fails for want of them only if there are none. -/
theorem atlas_holdsFiles (folder : Location) (excludes : Option Path) (settings : Settings)
    (root : Location) (hd : d.WellFormed) :
    (atlas d folder excludes settings root = .error (.noFilesFound (Path.ofNames root)) ↔
      files d folder excludes settings root = []) ∧
    ((files d folder excludes settings root).map Path.ofNames).Nodup ∧
    (files d folder excludes settings root ≠ [] → ∃ a,
      atlas d folder excludes settings root = .ok a ∧
        HoldsFiles d (files d folder excludes settings root) a.sections) := by
  have hnodup := nodup_map_ofNames_files hd folder excludes settings root
  rw [atlas]
  cases hfiles : files d folder excludes settings root with
  | nil => exact ⟨iff_of_true rfl rfl, List.nodup_nil, fun h => absurd rfl h⟩
  | cons place places =>
    rw [hfiles] at hnodup
    refine ⟨iff_of_false nofun (List.cons_ne_nil _ _), hnodup, fun _ => ⟨_, rfl, ?_⟩⟩
    exact holdsFiles_group hd hnodup _ _

/-- Of the five source files of the shop two have records: of the others one holds
a null character, one is no text, and one may not be read. The section of the
folder comes first. -/
theorem atlas_shop : Search.shop.WellFormed ∧
    (files Search.shop [] Search.noExcludes .standard [Utf8.ofString "shop"]).length = 5 ∧
    ∃ a, atlas Search.shop [] Search.noExcludes .standard [Utf8.ofString "shop"] = .ok a ∧
      HoldsFiles Search.shop
        (files Search.shop [] Search.noExcludes .standard [Utf8.ofString "shop"]) a.sections ∧
      a.sections.names = ["cart", "_root"] ∧ a.sections.files.map FileRecord.path =
        [Path.ofString "/shop/cart/list.ts", Path.ofString "/shop/cart.ts"] := by
  have hlength :
      (files Search.shop [] Search.noExcludes .standard [Utf8.ofString "shop"]).length = 5 := by
    decide +kernel
  obtain ⟨-, -, hatlas⟩ :=
    atlas_holdsFiles [] Search.noExcludes .standard [Utf8.ofString "shop"] Search.wellFormed_shop
  have hread :
      (atlas Search.shop [] Search.noExcludes .standard [Utf8.ofString "shop"]).toOption.map
        (fun a => (a.sections.names, a.sections.files.map FileRecord.path)) =
        some (["cart", "_root"],
          [Path.ofString "/shop/cart/list.ts", Path.ofString "/shop/cart.ts"]) := by
    decide +kernel
  have hne : files Search.shop [] Search.noExcludes .standard [Utf8.ofString "shop"] ≠ [] := by
    intro hnil
    rw [hnil] at hlength
    cases hlength
  obtain ⟨a, ha, hholds⟩ := hatlas hne
  rw [ha] at hread
  obtain ⟨hnames, hpaths⟩ := Prod.mk.inj (Option.some.inj hread)
  exact ⟨Search.wellFormed_shop, hlength, a, ha, hholds, hnames, hpaths⟩

end Project

end ExportAtlas
