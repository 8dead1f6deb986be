import ExportAtlas.Proofs.Report.Blocks
import ExportAtlas.Proofs.Report.Drawing
import ExportAtlas.Proofs.Path
/-!
# The files that a drawing shows

A folder has a row if it leads to a file (`mem_folder_rowsUnder`), and a file
if it is the last at its position (`mem_file_rowsUnder`). So files with
different positions are all shown, and drawn alike in whatever order they come
(`render_eq_of_perm`). There are as many files shown as there are positions
(`length_shown`); the listing has a block for every file, so the two reports
show equally many files exactly if no two files have one position
(`shown_of_reports`).
-/

namespace ExportAtlas

namespace Report

namespace FolderTree

open Folder

variable {way p : List String} {r : Row}

/-! ## The rows of files -/

section Files

variable {root : Path} {files : List FileRecord}

theorem mem_rowsUnder : r ∈ rowsUnder root files ↔
    Holds (arrange root files) r.position r.file? := by
  rw [rowsUnder, mem_rowsOf (ordered_arrange root files)]
  exact ⟨fun ⟨_, hway, h⟩ => by rwa [Row.position, hway], fun h => ⟨r.way, rfl, h⟩⟩

theorem Row.position_ne_nil (r : Row) : r.position ≠ [] := by simp [Row.position]

/-- **A folder has a row if it leads to a file.** -/
theorem mem_folder_rowsUnder {name : String} : ⟨way, name, none⟩ ∈ rowsUnder root files ↔
    ∃ file ∈ files, ∃ below, below ≠ [] ∧ position root file = way ++ name :: below := by
  rw [mem_rowsUnder, Holds, hasFolder_arrange, or_iff_right (Row.position_ne_nil _)]
  refine exists_congr fun file => and_congr_right fun _ => ⟨?_, ?_⟩
  · rintro ⟨⟨below, hbelow⟩, hne⟩
    refine ⟨below, ?_, by rw [← hbelow, Row.position, List.append_assoc]; rfl⟩
    rintro rfl
    exact hne (by rwa [List.append_nil] at hbelow)
  · rintro ⟨below, hne, hposition⟩
    have hposition : (⟨way, name, none⟩ : Row).position ++ below = position root file := by
      rw [hposition, Row.position, List.append_assoc]
      rfl
    exact ⟨⟨below, hposition⟩, fun heq =>
      hne (List.append_right_eq_self.mp (hposition.trans heq.symm))⟩

/-- **A file has a row if it is the last at its position.** -/
theorem mem_file_rowsUnder {name : String} {file : FileRecord} :
    ⟨way, name, some file⟩ ∈ rowsUnder root files ↔
      (files.filter fun f => position root f = way ++ [name]).getLast? = some file := by
  rw [mem_rowsUnder, Holds, fileAt?_arrange (Row.position_ne_nil _), Row.position]

/-- Where no two files have one position, each is the last at its own. -/
theorem getLast?_filter_position {file : FileRecord} (hnodup : (files.map (position root)).Nodup) :
    (files.filter fun f => position root f = p).getLast? = some file ↔
      file ∈ files ∧ position root file = p := by
  constructor
  · intro h
    obtain ⟨hfile, hposition⟩ := List.mem_filter.mp (List.mem_of_getLast? h)
    exact ⟨hfile, of_decide_eq_true hposition⟩
  · rintro ⟨hfile, hposition⟩
    have hmem : file ∈ files.filter fun f => position root f = p :=
      List.mem_filter.mpr ⟨hfile, decide_eq_true hposition⟩
    have hlast := List.getLast?_eq_some_getLast (List.ne_nil_of_mem hmem)
    obtain ⟨hother, hsame⟩ := List.mem_filter.mp (List.mem_of_getLast? hlast)
    rw [hlast, List.inj_on_of_nodup_map hnodup hother hfile
      ((of_decide_eq_true hsame).trans hposition.symm)]

/-- **The rows depend on the set of files only**, where no two files have one
position. -/
theorem rowsUnder_eq_of_perm {files' : List FileRecord} (hfiles : files.Perm files')
    (hnodup : (files.map (position root)).Nodup) :
    rowsUnder root files = rowsUnder root files' := by
  have hnodup' : (files'.map (position root)).Nodup := (hfiles.map _).nodup_iff.mp hnodup
  refine (pairwise_rowsUnder root files).eq_of_mem_iff (pairwise_rowsUnder root files') ?_
  rintro ⟨way, name, _ | file⟩
  · simp only [mem_folder_rowsUnder, hfiles.mem_iff]
  · rw [mem_file_rowsUnder, mem_file_rowsUnder, getLast?_filter_position hnodup,
      getLast?_filter_position hnodup', hfiles.mem_iff]

/-! ### The files that are shown -/

/-- The files that rows show, in their order. -/
def shown (rows : List Row) : List FileRecord := rows.filterMap Row.file?

/-- A file is shown at its position. -/
theorem position_eq_of_mem {file : FileRecord} (hr : r ∈ rowsUnder root files)
    (hfile : r.file? = some file) : r.position = position root file := by
  obtain ⟨way, name, file?⟩ := r
  obtain rfl : file? = some file := hfile
  obtain ⟨-, hposition⟩ := List.mem_filter.mp (List.mem_of_getLast? (mem_file_rowsUnder.mp hr))
  exact (of_decide_eq_true hposition).symm

/-- **Files are shown at different positions.** -/
theorem nodup_position_shown (root : Path) (files : List FileRecord) :
    ((shown (rowsUnder root files)).map (position root)).Nodup := by
  rw [List.Nodup, List.pairwise_map, shown, List.pairwise_filterMap]
  refine (nodup_of_pairwise_before (pairwise_rowsUnder root files)).imp_of_mem ?_
  intro r r' hr hr' hne file hfile file' hfile' heq
  obtain ⟨way, name, file?⟩ := r
  obtain ⟨way', name', file?'⟩ := r'
  obtain rfl : file? = some file := hfile
  obtain rfl : file?' = some file' := hfile'
  have hposition : way ++ [name] = way' ++ [name'] :=
    (position_eq_of_mem hr rfl).trans (heq.trans (position_eq_of_mem hr' rfl).symm)
  obtain ⟨rfl, hname⟩ := List.append_inj' hposition rfl
  obtain rfl := List.singleton_inj.mp hname
  rw [mem_file_rowsUnder] at hr hr'
  exact hne (by rw [Option.some.inj (hr.symm.trans hr')])

/-- **A file is shown if it is the last at its position**, and that is not the
top itself. -/
theorem mem_shown {file : FileRecord} : file ∈ shown (rowsUnder root files) ↔
    position root file ≠ [] ∧
      (files.filter fun f => position root f = position root file).getLast? = some file := by
  rw [shown, List.mem_filterMap]
  constructor
  · rintro ⟨⟨way, name, file?⟩, hr, hfile⟩
    obtain rfl : file? = some file := hfile
    rw [← position_eq_of_mem hr rfl]
    exact ⟨Row.position_ne_nil _, mem_file_rowsUnder.mp hr⟩
  · rintro ⟨hne, hlast⟩
    obtain ⟨way, name, hposition⟩ := (List.eq_nil_or_concat' (position root file)).resolve_left hne
    rw [hposition] at hlast
    exact ⟨_, mem_file_rowsUnder.mpr hlast, rfl⟩

/-- **Every file is shown once**, where they have different positions below the
top. -/
theorem perm_shown (hne : ∀ file ∈ files, position root file ≠ [])
    (hnodup : (files.map (position root)).Nodup) : (shown (rowsUnder root files)).Perm files := by
  refine (List.perm_ext_iff_of_nodup (nodup_position_shown root files).of_map hnodup.of_map).mpr ?_
  intro file
  rw [mem_shown, getLast?_filter_position hnodup]
  exact ⟨fun h => h.2.1, fun hfile => ⟨hne file hfile, hfile, rfl⟩⟩

/-! ### The drawing of a set of files -/

/-- The rows that a set of files wants. -/
structure Draws (root : Path) (files : List FileRecord) (rows : List Row) : Prop where
  /-- Every file is shown, and shown once. -/
  shown_perm : (shown rows).Perm files
  /-- It stands at its position. -/
  position_eq : ∀ r ∈ rows, ∀ file, r.file? = some file → r.position = position root file
  /-- The folders that lead to a file are shown, and no others. -/
  mem_folder : ∀ way name, ⟨way, name, none⟩ ∈ rows ↔
    ∃ file ∈ files, ∃ below, below ≠ [] ∧ position root file = way ++ name :: below
  /-- Rows stand in their order, so none is repeated. -/
  ordered : rows.Pairwise Row.Before
  /-- All that a folder holds is drawn right behind it. -/
  nested : ∀ d ∈ rows, d.file? = none → ∃ before after,
    rows = before ++ d :: ((rows.filter fun r => d.position <+: r.way) ++ after)

theorem draws_rowsUnder (hne : ∀ file ∈ files, position root file ≠ [])
    (hnodup : (files.map (position root)).Nodup) : Draws root files (rowsUnder root files) where
  shown_perm := perm_shown hne hnodup
  position_eq _ hr _ := position_eq_of_mem hr
  mem_folder _ _ := mem_folder_rowsUnder
  ordered := pairwise_rowsUnder root files
  nested _ := exists_eq_append_of_isFolder (pairwise_rowsUnder root files)

end Files

/-- **The drawing depends on the set of files only**, as long as they have
different positions below the top: whatever the sections and the order, there
is a line for each file with its symbols and one for each folder that leads to
it, each in its place. The last row of a folder has the closing connector, and
what stands below it no bar (`Row.line`). -/
theorem render_eq_of_perm (root : Path) (a b : Atlas)
    (hfiles : a.sections.files.Perm b.sections.files)
    (hne : ∀ file ∈ a.sections.files, position root file ≠ [])
    (hnodup : (a.sections.files.map (position root)).Nodup) :
    render root a = render root b ∧
    ∃ rows, Draws root a.sections.files rows ∧
      render root a = unlines ((rootName root ++ "/") :: rows.map (Row.line rows)) := by
  refine ⟨?_, _, draws_rowsUnder hne hnodup, render_eq root a⟩
  rw [render_eq, render_eq, rowsUnder_eq_of_perm hfiles hnodup]

/-- Files in two folders, and one beside them. -/
def shopFiles : List FileRecord :=
  [.of (.ofString "/work/shop/src/lib/format.ts") { Exports.empty with functions := ["f"] },
    .of (.ofString "/work/shop/src/app.tsx") { Exports.empty with defaultExport := some "App" },
    .of (.ofString "/work/shop/index.js") Exports.empty]

/-- A project with these files in two sections. -/
def shopApart : Atlas :=
  ⟨.react, ⟨[⟨"src", shopFiles.take 2⟩, ⟨"_root", shopFiles.drop 2⟩], [("src", 0), ("_root", 1)]⟩,
    none⟩

/-- A project with these files in one section, the other way round. -/
def shopTogether : Atlas := ⟨.vanilla, ⟨[⟨"all", shopFiles.reverse⟩], [("all", 0)]⟩, none⟩

/-- The two projects are drawn alike. -/
theorem render_eq_shop :
    shopApart.sections.files.Perm shopTogether.sections.files ∧
    lines (.ofString "/work/shop") shopApart = ["shop/", "├─ src/", "│  ├─ lib/",
      "│  │  └─ format.ts → f", "│  └─ app.tsx → default App", "└─ index.js"] ∧
    render (.ofString "/work/shop") shopApart = render (.ofString "/work/shop") shopTogether := by
  have hfiles : shopApart.sections.files.Perm shopTogether.sections.files := by decide +kernel
  exact ⟨hfiles, by decide +kernel,
    (render_eq_of_perm _ _ _ hfiles (by decide +kernel) (by decide +kernel)).1⟩

/-! ## Two reports -/

section Reports

variable {root : Path} {files : List FileRecord}

/-- **As many files are shown as there are positions** below the top. -/
theorem length_shown (root : Path) (files : List FileRecord) :
    (shown (rowsUnder root files)).length = ((files.map (position root)).filter (· ≠ [])).eraseDups.length := by
  have hperm : ((shown (rowsUnder root files)).map (position root)).Perm
      ((files.map (position root)).filter (· ≠ [])).eraseDups := by
    refine (List.perm_ext_iff_of_nodup (nodup_position_shown root files) (nodup_eraseDups _)).mpr ?_
    intro p
    rw [List.mem_eraseDups, List.mem_filter, List.mem_map, List.mem_map, decide_eq_true_iff]
    constructor
    · rintro ⟨file, hfile, rfl⟩
      obtain ⟨hne, hlast⟩ := mem_shown.mp hfile
      exact ⟨⟨file, (List.mem_filter.mp (List.mem_of_getLast? hlast)).1, rfl⟩, hne⟩
    · rintro ⟨⟨file, hfile, rfl⟩, hne⟩
      have hmem : file ∈ files.filter fun f => position root f = position root file :=
        List.mem_filter.mpr ⟨hfile, decide_eq_true rfl⟩
      obtain ⟨last, hlast⟩ : ∃ last,
          (files.filter fun f => position root f = position root file).getLast? = some last :=
        ⟨_, List.getLast?_eq_some_getLast (List.ne_nil_of_mem hmem)⟩
      have hsame := of_decide_eq_true (List.mem_filter.mp (List.mem_of_getLast? hlast)).2
      exact ⟨last, mem_shown.mpr ⟨hsame ▸ hne, by rw [hsame, hlast]⟩, hsame⟩
  rw [← hperm.length_eq, List.length_map]

/-- Only the root itself is at the top. -/
theorem position_ne_nil {file : FileRecord} (h : file.path.components ≠ root.components) :
    position root file ≠ [] := by
  rw [position, FileRecord.relativeParts?, Path.relativeParts?]
  cases hrest : Path.dropPrefix? root.components file.path.components with
  | none => exact List.cons_ne_nil _ _
  | some rest =>
    rintro hnil
    obtain rfl : rest = [] := List.map_eq_nil_iff.mp hnil
    exact h (by rw [Path.dropPrefix?_eq_some_iff.mp hrest, List.append_nil])

/-- A file lies under the root, and all on its path is UTF-8. -/
def LiesUnder (root : Path) (file : FileRecord) : Prop :=
  root.components <+: file.path.components ∧ ∀ c ∈ file.path.components, c.IsLegible

instance (root : Path) (file : FileRecord) : Decidable (LiesUnder root file) :=
  inferInstanceAs (Decidable (_ ∧ _))

/-- **A file under the root is known from its position.** -/
theorem components_of_position {file : FileRecord} (h : LiesUnder root file) :
    file.path.components = root.components ++ (position root file).map Component.ofText := by
  obtain ⟨⟨rest, hrest⟩, hlegible⟩ := h
  have hback : ∀ c ∈ rest, (Component.ofText ∘ Component.display) c = id c := by
    intro c hc
    have hmem : c ∈ file.path.components := hrest ▸ List.mem_append_right _ hc
    exact Component.ofText_display hmem (hlegible c hmem)
  rw [position, FileRecord.relativeParts?, Path.relativeParts?,
    Path.dropPrefix?_eq_some_iff.mpr hrest.symm, Option.map_some, Option.getD_some, List.map_map,
    List.map_congr_left hback, List.map_id, hrest]

/-- **The listing shows every file, the drawing every position.** The listing has
a block for each file, so the drawing shows as many files exactly if no two of
them have one position. Files that lie under the root with UTF-8 names have
different positions; two whose names are shown alike need not, nor two outside
the root. -/
theorem shown_of_reports (root : Path) (a : Atlas)
    (hpaths : (a.sections.files.map fun file => file.path.components).Nodup)
    (hroot : ∀ file ∈ a.sections.files, file.path.components ≠ root.components) :
    (Listing.render a = unlines ((Listing.pieces a).flatMap Listing.write) ∧
      (blocks (Listing.pieces a)).map Prod.snd = a.sections.files) ∧
    ∃ rows, render root a = unlines ((rootName root ++ "/") :: rows.map (Row.line rows)) ∧
      rows.Pairwise Row.Before ∧
      (shown rows).length = (a.sections.files.map (position root)).eraseDups.length ∧
      ((shown rows).length = a.sections.fileCount ↔
        (a.sections.files.map (position root)).Nodup) ∧
      ((∀ file ∈ a.sections.files, LiesUnder root file) →
        (shown rows).length = a.sections.fileCount) := by
  have hne : ∀ p ∈ a.sections.files.map (position root), decide (p ≠ []) = true :=
    List.forall_mem_map.mpr fun file hfile => decide_eq_true (position_ne_nil (hroot file hfile))
  have hshown := length_shown root a.sections.files
  rw [List.filter_eq_self.mpr hne] at hshown
  have hcount : (shown (rowsUnder root a.sections.files)).length = a.sections.fileCount ↔
      (a.sections.files.map (position root)).Nodup := by
    rw [hshown, Sections.fileCount, ← length_eraseDups_eq_iff, List.length_map]
  have hblocks : (blocks (Listing.pieces a)).map Prod.snd = a.sections.files := by
    rw [Listing.blocks_pieces, List.map_flatMap, Sections.files]
    simp [Function.comp_def]
  refine ⟨⟨Listing.render_eq a, hblocks⟩, _, render_eq root a, pairwise_rowsUnder root _, hshown,
    hcount, fun hunder => hcount.mpr ?_⟩
  refine List.Nodup.map_on (fun file hfile file' hfile' heq => ?_) hpaths.of_map
  refine List.inj_on_of_nodup_map hpaths hfile hfile' ?_
  rw [components_of_position (hunder file hfile), heq,
    ← components_of_position (hunder file' hfile')]

end Reports

/-- Two files whose names are different, but shown alike. -/
def twins : List FileRecord :=
  [.of ⟨Text.Utf8.ofString "/repo/a" ++ 0xFF :: Text.Utf8.ofString ".ts"⟩
      { Exports.empty with functions := ["f"] },
    .of ⟨Text.Utf8.ofString "/repo/a" ++ 0xFE :: Text.Utf8.ofString ".ts"⟩
      { Exports.empty with functions := ["g"] }]

/-- A project with these files. -/
def twinAtlas : Atlas := ⟨.vanilla, ⟨[⟨"_root", twins⟩], [("_root", 0)]⟩, none⟩

/-- The listing shows both, the drawing the second. -/
theorem twins_shown_once :
    (twins.map fun file => file.path.components).Nodup ∧
    (∀ file ∈ twins, file.path.components ≠ (Path.ofString "/repo").components) ∧
    (blocks (Listing.pieces twinAtlas)).map Prod.snd = twins ∧
    Listing.lines twinAtlas = ["# JavaScript/TypeScript project (vanilla)", "",
      "## _root (2 files)", "/repo/a\uFFFD.ts", "  function: f", "/repo/a\uFFFD.ts", "  function: g"] ∧
    lines (.ofString "/repo") twinAtlas = ["repo/", "└─ a\uFFFD.ts → g"] ∧
    (shown (rowsUnder (.ofString "/repo") twins)).length ≠ twinAtlas.sections.fileCount := by
  decide +kernel

/-- Files under the root with UTF-8 names are all shown. -/
theorem shown_of_reports_shop :
    ∃ rows, render (.ofString "/work/shop") shopApart =
        unlines ("shop/" :: rows.map (Row.line rows)) ∧
      (shown rows).length = shopApart.sections.fileCount := by
  have hpaths : (shopApart.sections.files.map fun file => file.path.components).Nodup := by
    decide +kernel
  have hroot : ∀ file ∈ shopApart.sections.files,
      file.path.components ≠ (Path.ofString "/work/shop").components := by decide +kernel
  obtain ⟨-, rows, hrender, -, -, -, hcount⟩ := shown_of_reports _ _ hpaths hroot
  have hname : rootName (.ofString "/work/shop") ++ "/" = "shop/" := by decide +kernel
  rw [hname] at hrender
  exact ⟨rows, hrender, hcount (by decide +kernel)⟩

end FolderTree

end Report

end ExportAtlas
