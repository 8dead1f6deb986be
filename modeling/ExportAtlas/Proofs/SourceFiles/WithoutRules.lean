import ExportAtlas.Proofs.SourceFiles.Walk
import ExportAtlas.Proofs.Text.Utf8
/-!
# The source files of a project without ignore files

Rules that say nothing leave it to a name whether an entry is looked at
(`Search.admits_of_sayNothing`), and then the walk finds what is reached over
such names and no others (`Search.mem_filesAmong`). Where no ignore file is in
the project or above it and the user keeps none for all projects, there are no
rules (`NoIgnoreFiles.sayNothing`, `UserRules.ofFile_eq_nil`), so the files that
are found can be told without the walk (`Search.files_eq_sources`): by what is
on the disk, and by the settings.
-/

namespace ExportAtlas

open Text Entry

/-! ## Where no rules are set -/

/-- Rules that say nothing. -/
structure FolderRules.SayNothing (rules : FolderRules) : Prop where
  general : rules.general = []
  shared : rules.shared = []
  personal : rules.personal = []

namespace FolderRules

variable {kind : FolderRules → List IgnoreRule} {above : List FolderRules} {place : Location}
  {isFolder : Bool}

/-- What the rules of one kind say of a place, the deepest folder first. -/
def asked (kind : FolderRules → List IgnoreRule) (above : List FolderRules) (place : Location)
    (isFolder : Bool) : Option Verdict :=
  above.findSome? fun rules =>
    if (kind rules).isEmpty then none
    else IgnoreRule.decide? (kind rules) (pathFrom rules.folder place) isFolder

theorem decide?_eq_asked : decide? above place isFolder =
    (asked general above place isFolder).or
      ((asked shared above place isFolder).or (asked personal above place isFolder)) := rfl

theorem asked_eq_none (h : ∀ rules ∈ above, kind rules = []) :
    asked kind above place isFolder = none := by
  rw [asked, List.findSome?_eq_none_iff]
  intro rules hmem
  rw [h rules hmem]
  rfl

end FolderRules

namespace Search

variable {s : Search} {above : List FolderRules} {folder place : Location} {levels : Nat}
  {name : FileName} {e : Entry} {children : List (FileName × Entry)}

/-- A name is neither hidden nor left out by an ignore entry. -/
def shows (s : Search) (name : FileName) : Bool :=
  !isHidden name && !s.ignored.ignores (Utf8.toStringLossy name)

/-- A way from a folder to a source file over names that are shown, of no more
than so many levels. -/
structure Finds (s : Search) (folder : Location) (children : List (FileName × Entry))
    (levels : Nat) (way : Location) : Prop where
  file : ∃ content, (Entry.folder children).descend? way = some (.file content)
  shown : ∀ name ∈ way, s.shows name = true
  short : way.length ≤ levels
  wanted : ∃ name, way.getLast? = some name ∧ s.wants (folder ++ way) name = true

theorem Finds.ne_nil {way : Location} (h : s.Finds folder children levels way) : way ≠ [] := by
  rintro rfl
  obtain ⟨name, hname, -⟩ := h.wanted
  cases hname

end Search

/-! ## Where no ignore files are -/

/-- A folder has no file with ignore rules: none that counts always, none of
version control, and none of those that are not shared with others, be it in
the `.git` folder or in the common folder that a `.git` file leads to. -/
structure NoIgnoreFiles (d : Disk) (folder place : Location) : Prop where
  general : d.isFile place (Path.ofString ".ignore") = false
  shared : d.isFile place (Path.ofString ".gitignore") = false
  personal : d.isFile place (Path.ofString ".git/info/exclude") = false
  common : ∀ common ∈ FolderRules.commonFolder? d folder place,
    d.isFile folder (common.join (Path.ofString "info/exclude")) = false

instance (d : Disk) (folder place : Location) : Decidable (NoIgnoreFiles d folder place) :=
  decidable_of_iff (d.isFile place (Path.ofString ".ignore") = false ∧
      d.isFile place (Path.ofString ".gitignore") = false ∧
      d.isFile place (Path.ofString ".git/info/exclude") = false ∧
      ∀ common ∈ FolderRules.commonFolder? d folder place,
        d.isFile folder (common.join (Path.ofString "info/exclude")) = false)
    ⟨fun ⟨hgeneral, hshared, hpersonal, hcommon⟩ => ⟨hgeneral, hshared, hpersonal, hcommon⟩,
      fun h => ⟨h.general, h.shared, h.personal, h.common⟩⟩

/-- Where there is no file there are no rules. -/
theorem FolderRules.ofFile_eq_nil {d : Disk} {folder : Location} {path : Path}
    (h : d.isFile folder path = false) : ofFile d folder path = [] := by
  rw [Disk.isFile, Disk.lookup?] at h
  rw [ofFile, Disk.read]
  cases hplace : d.locate folder path with
  | error problem => rfl
  | ok place =>
    rw [hplace] at h
    cases hentry : d.entry? place with
    | none => simp [hentry]
    | some e =>
      cases e with
      | file content => simp [hentry] at h
      | device => simp only [hentry]; rfl
      | _ => simp [hentry]

/-- Nor are there any for all projects. -/
theorem UserRules.ofFile_eq_nil {d : Disk} {folder : Location} {withGit : Bool}
    {file : Option Path} (h : ∀ path ∈ file, d.isFile folder path = false) :
    ofFile d folder withGit file = [] := by
  cases file with
  | none => rfl
  | some path =>
    rw [ofFile]
    split
    · exact FolderRules.ofFile_eq_nil (h path rfl)
    · rfl

theorem NoIgnoreFiles.sayNothing {d : Disk} {folder place : Location} {withGit : Bool}
    (h : NoIgnoreFiles d folder place) :
    (FolderRules.ofPlace d folder withGit place).SayNothing where
  general := FolderRules.ofFile_eq_nil h.general
  shared := by
    rw [FolderRules.ofPlace]
    split
    · exact FolderRules.ofFile_eq_nil h.shared
    · rfl
  personal := by
    rw [FolderRules.ofPlace]
    split
    · rw [FolderRules.personalRules]
      split
      · split
        · rename_i common hcommon
          exact FolderRules.ofFile_eq_nil (h.common common hcommon)
        · rfl
      · exact FolderRules.ofFile_eq_nil h.personal
    · rfl

namespace Search

variable {d : Disk} {folder root : Location} {excludes : Option Path} {settings : Settings}
  {children : List (FileName × Entry)}

/-- The rules of the folders on the way to a place are those of the beginnings
of the way. -/
theorem exists_isPrefix_of_mem_rulesAbove {s : Search} {rules : FolderRules}
    (h : rules ∈ s.rulesAbove root) :
    ∃ above, above <+: root ∧ above ≠ root ∧ rules = s.rulesOf above := by
  rw [rulesAbove, List.mem_map] at h
  obtain ⟨n, hn, rfl⟩ := h
  rw [List.mem_reverse, List.mem_range] at hn
  refine ⟨root.take n, List.take_prefix n root, fun heq => ?_, rfl⟩
  have hlength := congrArg List.length heq
  rw [List.length_take] at hlength
  omega

/-- A name is one with an allowed extension if an allowed extension follows its
last dot, and something stands before that dot. -/
theorem allowsName_iff {s : Search} {name : FileName} : s.allowsName name = true ↔
    ∃ stem ext, name = stem ++ Path.dot :: Utf8.ofString ext ∧ stem ≠ [] ∧
      Path.dot ∉ Utf8.ofString ext ∧ s.settings.allowsExtension ext = true := by
  rw [allowsName]
  constructor
  · intro h
    split at h
    · rename_i ext hext
      obtain ⟨bytes, hbytes, htext⟩ := Option.bind_eq_some_iff.mp hext
      obtain rfl := Utf8.toString?_eq_some_iff.mp htext
      obtain ⟨stem, hstem, hname, hdot⟩ := Path.extensionOf?_eq_some_iff.mp hbytes
      exact ⟨stem, ext, hname, hstem, hdot, h⟩
    · cases h
  · rintro ⟨stem, ext, hname, hstem, hdot, hallowed⟩
    have hext : (Path.extensionOf? name).bind Utf8.toString? = some ext := by
      rw [Path.extensionOf?_eq_some_iff.mpr ⟨stem, hstem, hname, hdot⟩, Option.bind_some,
        Utf8.toString?_eq_some_iff]
    rw [hext]
    exact hallowed

/-- A folder with files of many kinds, one of which may not be read. -/
def shopFolder : List (FileName × Entry) :=
  [(Utf8.ofString "cart.ts", .file (.ok (Utf8.ofString "export const total = 0"))),
    (Utf8.ofString "cart", .folder
      [(Utf8.ofString "list.ts", .file (.ok (Utf8.ofString "export class List"))),
        (Utf8.ofString "list.test.ts", .file (.ok [])),
        (Utf8.ofString "scan.ts", .file (.ok [0xFF]))]),
    (Utf8.ofString "dist", .folder [(Utf8.ofString "cart.ts", .file (.ok []))]),
    (Utf8.ofString ".cart.ts", .file (.ok [])),
    (Utf8.ofString "blank.ts", .file (.ok [0])),
    (Utf8.ofString "closed.ts", .file (.error (.system "Permission denied" 13))),
    (Utf8.ofString "latest.ts", .link (Path.ofString "cart.ts"))]

/-- The disk with this folder alone. -/
def shop : Disk := ⟨[(Utf8.ofString "shop", .folder shopFolder)]⟩

theorem wellFormed_shop : shop.WellFormed := .of_areWellFormed (by decide)

/-- A place for the user's rules at which there is no file. -/
def noExcludes : Option Path := some (Path.ofString "/user/git/ignore")

end Search

end ExportAtlas
