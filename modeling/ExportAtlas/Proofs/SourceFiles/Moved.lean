import Mathlib.Data.List.Forall2
import Mathlib.Data.List.Infix
import ExportAtlas.Proofs.Disk.Reading
import ExportAtlas.Proofs.SourceFiles.Narrower
/-!
# Where a project lies

A walk looks at what lies below its root: the names there, and the rules that
the folders there set, seen from these folders. So the same folder at two
places, on one disk or on two, is walked alike (`Search.filesAmong_moved`), as
long as no folder above it sets rules and the user's rules for all projects,
which see whole paths, say the same at both (`Search.ExcludesAlike`). A path to
a source file is judged as a whole, though, and a folder for tests counts
wherever it stands on the way: below one, nothing is found
(`Search.files_of_tests`). Beyond that the place of a project makes no
difference (`Search.files_eq_ways`).
-/

namespace ExportAtlas

open Text Entry

/-! ## Paths to tests -/

namespace Path

/-- The name of the folders that hold tests. -/
def testName : FileName := Utf8.ofString "__tests__"

variable {names root way : Location}

theorem contains_testFolder (h : ∀ n ∈ names, IsFileName n) :
    (ofNames names).components.contains testFolder = names.contains testName := by
  rw [components_ofNames h, Bool.eq_iff_iff, List.contains_iff_mem, List.contains_iff_mem,
    List.mem_cons, List.mem_map]
  constructor
  · rintro (hroot | ⟨n, hn, hname⟩)
    · cases hroot
    · rwa [Component.name.inj hname] at hn
  · exact fun hmem => .inr ⟨testName, hmem, rfl⟩

theorem lowerFileName?_append (h : ∀ n ∈ root ++ way, IsFileName n) (hne : way ≠ []) :
    (ofNames (root ++ way)).lowerFileName? = (ofNames way).lowerFileName? := by
  have hway : ∀ n ∈ way, IsFileName n := fun n hn => h n (List.mem_append_right root hn)
  rw [lowerFileName?, lowerFileName?, fileName?_ofNames h, fileName?_ofNames hway,
    List.getLast?_append_of_ne_nil root hne]

/-- **A folder for tests counts above the root too**, and nothing else does. -/
theorem isTestFile_append (h : ∀ n ∈ root ++ way, IsFileName n) (hne : way ≠ []) :
    (ofNames (root ++ way)).isTestFile = (root.contains testName || (ofNames way).isTestFile) := by
  have hway : ∀ n ∈ way, IsFileName n := fun n hn => h n (List.mem_append_right root hn)
  rw [isTestFile, isTestFile, contains_testFolder h, contains_testFolder hway,
    lowerFileName?_append h hne, List.contains_append, Bool.or_assoc]

theorem isDeclarationFile_append (h : ∀ n ∈ root ++ way, IsFileName n) (hne : way ≠ []) :
    (ofNames (root ++ way)).isDeclarationFile = (ofNames way).isDeclarationFile := by
  rw [isDeclarationFile, isDeclarationFile, lowerFileName?_append h hne]

end Path

/-! ## Rules that move along -/

/-- Folders set the same rules. -/
structure FolderRules.SameRules (rules rules' : FolderRules) : Prop where
  general : rules.general = rules'.general
  shared : rules.shared = rules'.shared
  personal : rules.personal = rules'.personal

/-- The same rules, set at the same place below two roots. -/
structure FolderRules.MovedTo (root root' : Location) (rules rules' : FolderRules) : Prop where
  same : rules.SameRules rules'
  folder : ∃ way, rules.folder = root ++ way ∧ rules'.folder = root' ++ way

namespace FolderRules

variable {above above' quiet : List FolderRules} {root root' place : Location} {isFolder : Bool}

/-- The way from one place below a root to another is the same below every
root. -/
theorem pathFrom_append (root folder place : Location) :
    pathFrom (root ++ folder) (root ++ place) = pathFrom folder place := by
  rw [pathFrom, pathFrom, List.length_append, ← List.drop_drop, List.drop_left]

/-- Rules that say nothing may be left out at the end. -/
theorem decide?_append_quiet (hquiet : ∀ rules ∈ quiet, rules.SayNothing) :
    decide? (above ++ quiet) place isFolder = decide? above place isFolder := by
  have hasked : ∀ kind : FolderRules → List IgnoreRule, (∀ rules ∈ quiet, kind rules = []) →
      asked kind (above ++ quiet) place isFolder = asked kind above place isFolder := by
    intro kind hkind
    have hnone : asked kind quiet place isFolder = none := asked_eq_none hkind
    rw [asked] at hnone ⊢
    rw [List.findSome?_append, hnone, Option.or_none]
    rfl
  rw [decide?_eq_asked, decide?_eq_asked, hasked _ fun rules hmem => (hquiet rules hmem).general,
    hasked _ fun rules hmem => (hquiet rules hmem).shared,
    hasked _ fun rules hmem => (hquiet rules hmem).personal]

/-- **Rules that move along say the same** of what moves with them. -/
theorem decide?_moved (h : List.Forall₂ (MovedTo root root') above above') :
    decide? above (root ++ place) isFolder = decide? above' (root' ++ place) isFolder := by
  have hasked : ∀ kind : FolderRules → List IgnoreRule,
      (∀ rules rules', SameRules rules rules' → kind rules = kind rules') →
      asked kind above (root ++ place) isFolder = asked kind above' (root' ++ place) isFolder := by
    intro kind hkind
    induction h with
    | nil => rfl
    | cons hmoved _ ih =>
      obtain ⟨hsame, way, hway, hway'⟩ := hmoved
      rw [asked] at ih ⊢
      rw [asked, List.findSome?_cons, List.findSome?_cons, ih, hkind _ _ hsame, hway, hway',
        pathFrom_append, pathFrom_append]
      rfl
  rw [decide?_eq_asked, decide?_eq_asked, hasked _ fun _ _ hsame => hsame.general,
    hasked _ fun _ _ hsame => hsame.shared, hasked _ fun _ _ hsame => hsame.personal]

/-! ### Rules of one's own -/

/-- An entry is a file. -/
def isFile : Entry → Bool
  | .file _ => true
  | _ => false

/-- A folder holds its ignore files itself: none of them is reached over a
link, and version control keeps what it needs in a folder. -/
structure OwnIgnoreFiles (children : List (FileName × Entry)) : Prop where
  general : (Entry.folder children).meetsLink [Utf8.ofString ".ignore"] = false
  shared : (Entry.folder children).meetsLink [Utf8.ofString ".gitignore"] = false
  personal : (Entry.folder children).meetsLink
    [Utf8.ofString ".git", Utf8.ofString "info", Utf8.ofString "exclude"] = false
  git : ∀ content, children.lookup (Utf8.ofString ".git") ≠ some (.file content)

instance (children : List (FileName × Entry)) : Decidable (OwnIgnoreFiles children) :=
  decidable_of_iff
    ((Entry.folder children).meetsLink [Utf8.ofString ".ignore"] = false ∧
      (Entry.folder children).meetsLink [Utf8.ofString ".gitignore"] = false ∧
      (Entry.folder children).meetsLink
        [Utf8.ofString ".git", Utf8.ofString "info", Utf8.ofString "exclude"] = false ∧
      ((children.lookup (Utf8.ofString ".git")).all fun e => !isFile e) = true)
    ⟨fun ⟨hgeneral, hshared, hpersonal, hgit⟩ => ⟨hgeneral, hshared, hpersonal, fun content h => by
        rw [h] at hgit
        cases hgit⟩,
      fun h => ⟨h.general, h.shared, h.personal, by
        cases hgit : children.lookup (Utf8.ofString ".git") with
        | none => rfl
        | some e =>
          cases e with
          | file content => exact absurd hgit (h.git content)
          | _ => rfl⟩⟩

variable {d d' : Disk} {folder folder' place' : Location} {withGit : Bool}
  {children : List (FileName × Entry)}

theorem ofFile_eq_of_folder {e : Entry} {p : Path} {names : Location}
    (hplace : d.entry? place = some e) (hplace' : d'.entry? place' = some e)
    (hsteps : p.steps = names.map .down) (hlink : e.meetsLink names = false) :
    ofFile d place p = ofFile d' place' p := by
  rw [ofFile, ofFile, Disk.read_eq_of_folder hplace hplace' hsteps hlink]

theorem OwnIgnoreFiles.personalRules_eq (h : OwnIgnoreFiles children)
    (hplace : d.entry? place = some (.folder children)) :
    personalRules d folder place = ofFile d place (personalFile gitEntry) := by
  have hlink : (Entry.folder children).meetsLink [Utf8.ofString ".git"] = false :=
    not_meetsLink_of_append h.personal
  have hgit : d.isFile place gitEntry = false := by
    refine Disk.isFile_eq_false hplace (by rfl) hlink fun content hfile => h.git content ?_
    obtain ⟨children', f, heq, hlookup, hf⟩ := descend?_cons_eq_some_iff.mp hfile
    rw [descend?_nil] at hf
    rw [Entry.folder.inj heq, hlookup, hf]
  rw [personalRules, hgit]
  rfl

/-- **A folder with ignore files of its own** sets the same rules wherever it
lies. -/
theorem OwnIgnoreFiles.sameRules (h : OwnIgnoreFiles children)
    (hplace : d.entry? place = some (.folder children))
    (hplace' : d'.entry? place' = some (.folder children)) :
    (ofPlace d folder withGit place).SameRules (ofPlace d' folder' withGit place') where
  general := ofFile_eq_of_folder hplace hplace' (by rfl) h.general
  shared := by
    rw [ofPlace, ofPlace]
    split
    · exact ofFile_eq_of_folder hplace hplace' (by rfl) h.shared
    · rfl
  personal := by
    rw [ofPlace, ofPlace]
    split
    · dsimp only
      rw [h.personalRules_eq hplace, h.personalRules_eq hplace']
      exact ofFile_eq_of_folder hplace hplace' (by rfl) h.personal
    · rfl

end FolderRules

namespace Search

variable {s s' : Search} {above above' quiet quiet' : List FolderRules}
  {root root' way place folder : Location} {levels : Nat} {name : FileName}
  {children : List (FileName × Entry)}

/-! ## The walk moves along -/

/-- Searches for the same settings, on disks that may differ. -/
structure SameSettings (s s' : Search) : Prop where
  settings : s.settings = s'.settings
  ignored : s.ignored = s'.ignored

/-- The user's rules for all projects say the same of what a folder holds at two
places. -/
def ExcludesAlike (s s' : Search) (root root' : Location) (children : List (FileName × Entry)) :
    Prop :=
  ∀ way e, way ≠ [] → (Entry.folder children).descend? way = some e →
    s.exclude? (root ++ way) e.isFolder = s'.exclude? (root' ++ way) e.isFolder

theorem ExcludesAlike.of_lookup {inner : List (FileName × Entry)}
    (h : s.ExcludesAlike s' root root' children)
    (he : children.lookup name = some (.folder inner)) :
    s.ExcludesAlike s' (root ++ [name]) (root' ++ [name]) inner := by
  intro way e _ hway
  rw [← List.append_cons, ← List.append_cons]
  exact h (name :: way) e (List.cons_ne_nil _ _) ((descend?_of_lookup he).trans hway)

/-- A place below one root, at the same way below another. -/
def moveTo (root root' place : Location) : Location := root' ++ place.drop root.length

theorem moveTo_append (root root' way : Location) :
    moveTo root root' (root ++ way) = root' ++ way := by
  rw [moveTo, List.drop_left]

theorem admits_moved (hs : s.SameSettings s') (hquiet : ∀ rules ∈ quiet, rules.SayNothing)
    (hquiet' : ∀ rules ∈ quiet', rules.SayNothing)
    (hmoved : List.Forall₂ (FolderRules.MovedTo root root') above above') {isFolder : Bool}
    (hexcluded : s.exclude? (root ++ way) isFolder = s'.exclude? (root' ++ way) isFolder) :
    s.admits (above ++ quiet) (root ++ way) name isFolder =
      s'.admits (above' ++ quiet') (root' ++ way) name isFolder := by
  rw [admits, admits, decide?, decide?, FolderRules.decide?_append_quiet hquiet,
    FolderRules.decide?_append_quiet hquiet', FolderRules.decide?_moved hmoved, hexcluded,
    hs.ignored]

/-- **A source file is judged by its way below the root**, except that no
folder for tests may lie on the way to the root. -/
theorem wants_append (h : ∀ n ∈ root ++ way, IsFileName n) (hne : way ≠ []) :
    s.wants (root ++ way) name = (!root.contains Path.testName && s.wants way name) := by
  rw [wants, wants, Path.isTestFile_append h hne, Path.isDeclarationFile_append h hne]
  cases root.contains Path.testName <;> simp

theorem wants_moved (hs : s.SameSettings s')
    (htests : root.contains Path.testName = root'.contains Path.testName)
    (h : ∀ n ∈ root ++ way, IsFileName n) (h' : ∀ n ∈ root' ++ way, IsFileName n)
    (hne : way ≠ []) : s.wants (root ++ way) name = s'.wants (root' ++ way) name := by
  have hway : s.wants way name = s'.wants way name := by
    rw [wants, wants, allowsName, allowsName, hs.settings]
  rw [wants_append h hne, wants_append h' hne, htests, hway]

/-- **The walk finds the same below both roots**, if the folders there set the
same rules, those above the roots set none, and the user's are alike. -/
theorem filesAmong_moved (hs : s.SameSettings s')
    (htests : root.contains Path.testName = root'.contains Path.testName)
    (hroot : ∀ n ∈ root, IsFileName n) (hroot' : ∀ n ∈ root', IsFileName n)
    (hquiet : ∀ rules ∈ quiet, rules.SayNothing) (hquiet' : ∀ rules ∈ quiet', rules.SayNothing)
    (hmoved : List.Forall₂ (FolderRules.MovedTo root root') above above')
    (hexcluded : s.ExcludesAlike s' (root ++ way) (root' ++ way) children)
    (hway : ∀ n ∈ way, IsFileName n)
    (hdistinct : DistinctNames children) (hnames : FileNames children)
    (hrules : ∀ below inner, (Entry.folder children).descend? below = some (.folder inner) →
      (s.rulesOf (root ++ (way ++ below))).SameRules (s'.rulesOf (root' ++ (way ++ below)))) :
    s'.filesAmong (above' ++ quiet') (root' ++ way) levels (sortedChildren children) =
      (s.filesAmong (above ++ quiet) (root ++ way) levels (sortedChildren children)).map
        (moveTo root root') := by
  -- the rules of each folder on the way down move along with it
  induction levels generalizing above above' way children with
  | zero => rw [filesAmong_zero, filesAmong_zero, List.map_nil]
  | succ levels ih =>
    rw [filesAmong_succ, filesAmong_succ, List.map_flatMap]
    refine List.flatMap_congr fun ⟨name, f⟩ hmem => ?_
    obtain ⟨e, he, rfl⟩ := mem_sortedChildren.mp hmem
    have hlookup := hdistinct.lookup_eq_some_iff.mpr he
    obtain ⟨hname, hinner⟩ := hnames.of_lookup hlookup
    have hnext : ∀ n ∈ way ++ [name], IsFileName n :=
      List.forall_mem_append.mpr ⟨hway, List.forall_mem_singleton.mpr hname⟩
    have halike := hexcluded [name] e (List.cons_ne_nil _ _)
      ((descend?_of_lookup hlookup).trans (descend?_nil e))
    rw [List.append_assoc, List.append_assoc] at halike
    rw [filesUnder, filesUnder, isFolder_sorted, List.append_assoc, List.append_assoc,
      ← admits_moved hs hquiet hquiet' hmoved halike]
    split
    · cases e with
      | file content =>
        rw [sorted, filesOf, filesOf, ← wants_moved hs htests
          (List.forall_mem_append.mpr ⟨hroot, hnext⟩) (List.forall_mem_append.mpr ⟨hroot', hnext⟩)
          (List.concat_ne_nil name way)]
        split
        · rw [List.map_singleton, moveTo_append]
        · rfl
      | folder inner =>
        rw [sorted, filesOf, filesOf, ← List.cons_append, ← List.cons_append]
        have hbelow : ∀ below deeper, (Entry.folder inner).descend? below = some (.folder deeper) →
            (s.rulesOf (root ++ ((way ++ [name]) ++ below))).SameRules
              (s'.rulesOf (root' ++ ((way ++ [name]) ++ below))) := by
          intro below deeper hdeeper
          rw [← List.append_cons]
          exact hrules (name :: below) deeper ((descend?_of_lookup hlookup).trans hdeeper)
        have hhere := hbelow [] inner (descend?_nil _)
        rw [List.append_nil] at hhere
        have hexcluded' := hexcluded.of_lookup hlookup
        rw [List.append_assoc, List.append_assoc] at hexcluded'
        exact ih (.cons ⟨hhere, way ++ [name], rfl, rfl⟩ hmoved) hexcluded' hnext
          (hdistinct.of_mem he) (hinner inner rfl) hbelow
      | _ =>
        rw [sorted, filesOf, filesOf]
        rfl
    · rfl

/-! ## What is found below a folder for tests -/

/-- The walk finds what the settings want. -/
theorem wants_of_mem_filesAmong (h : place ∈ s.filesAmong above folder levels children) :
    ∃ name, s.wants place name = true := by
  induction levels generalizing above folder children with
  | zero =>
    rw [filesAmong_zero] at h
    cases h
  | succ levels ih =>
    rw [filesAmong_succ, List.mem_flatMap] at h
    obtain ⟨⟨name, e⟩, -, hplace⟩ := h
    rcases mem_filesOf.mp (mem_filesUnder.mp hplace).2 with
      ⟨content, -, hwants, rfl⟩ | ⟨inner, -, hbelow⟩
    · exact ⟨name, hwants⟩
    · exact ih hbelow

/-- And it finds that below its folder. -/
theorem exists_way_of_mem_filesAmong (h : place ∈ s.filesAmong above folder levels children) :
    ∃ way, way ≠ [] ∧ place = folder ++ way := by
  cases levels with
  | zero =>
    rw [filesAmong_zero] at h
    cases h
  | succ levels =>
    rw [filesAmong_succ, List.mem_flatMap] at h
    obtain ⟨child, -, hplace⟩ := h
    obtain ⟨way, hway⟩ := isPrefix_of_mem_filesUnder hplace
    exact ⟨child.1 :: way, List.cons_ne_nil _ _, by rw [← hway, ← List.append_cons]⟩

/-- **Nothing is found below a folder for tests**, be it the root or a folder
that the root lies in. -/
theorem files_of_tests (hd : s.disk.WellFormed) (htests : Path.testName ∈ root) :
    s.files root = [] := by
  rw [List.eq_nil_iff_forall_not_mem]
  intro place hmem
  obtain ⟨content, hfile⟩ := exists_file_of_mem_files hd.distinct hmem
  have hnames := hd.fileNames.of_descend? hfile
  by_cases hroot : ∃ children, s.disk.entry? root = some (.folder children)
  · obtain ⟨children, hroot⟩ := hroot
    rw [files_of_folder hroot] at hmem
    obtain ⟨name, hwants⟩ := wants_of_mem_filesAmong hmem
    obtain ⟨way, hne, rfl⟩ := exists_way_of_mem_filesAmong hmem
    rw [wants_append hnames hne, List.contains_iff_mem.mpr htests] at hwants
    cases hwants
  · rw [files_of_not_folder fun children hchildren => hroot ⟨children, hchildren⟩] at hmem
    cases hmem

/-! ## The place of a project -/

/-- What is found lies below the root. -/
theorem map_append_drop_files :
    ((s.files root).map (List.drop root.length)).map (root ++ ·) = s.files root := by
  rw [List.map_map]
  refine (List.map_congr_left fun place hmem => ?_).trans (List.map_id _)
  by_cases hroot : ∃ children, s.disk.entry? root = some (.folder children)
  · obtain ⟨children, hroot⟩ := hroot
    rw [files_of_folder hroot] at hmem
    obtain ⟨way, -, rfl⟩ := exists_way_of_mem_filesAmong hmem
    rw [Function.comp_apply, List.drop_left, id_eq]
  · rw [files_of_not_folder fun children hchildren => hroot ⟨children, hchildren⟩] at hmem
    cases hmem

variable {d d' : Disk} {working working' : Location} {excludes excludes' : Option Path}
  {settings : Settings}

theorem sayNothing_of_mem_rulesAbove
    (h : ∀ above, above <+: root → above ≠ root → NoIgnoreFiles d working above) :
    ∀ rules ∈ (Search.of d working excludes settings).rulesAbove root, rules.SayNothing := by
  intro rules hmem
  obtain ⟨above, habove, hne, rfl⟩ := exists_isPrefix_of_mem_rulesAbove hmem
  exact (h above habove hne).sayNothing

/-- The files of one folder at two places, of which both or neither lie below
a folder for tests. -/
theorem files_moved (hd : d.WellFormed) (hd' : d'.WellFormed)
    (hroot : d.entry? root = some (.folder children))
    (hroot' : d'.entry? root' = some (.folder children))
    (habove : ∀ above, above <+: root → above ≠ root → NoIgnoreFiles d working above)
    (habove' : ∀ above, above <+: root' → above ≠ root' → NoIgnoreFiles d' working' above)
    (hrules : ∀ way inner, (Entry.folder children).descend? way = some (.folder inner) →
      ((Search.of d working excludes settings).rulesOf (root ++ way)).SameRules
        ((Search.of d' working' excludes' settings).rulesOf (root' ++ way)))
    (hexcludes : (Search.of d working excludes settings).ExcludesAlike
      (Search.of d' working' excludes' settings) root root' children)
    (htests : root.contains Path.testName = root'.contains Path.testName) :
    (Search.of d' working' excludes' settings).files root' =
      ((Search.of d working excludes settings).files root).map (moveTo root root') := by
  generalize hs : Search.of d working excludes settings = s at hrules hexcludes ⊢
  generalize hs' : Search.of d' working' excludes' settings = s' at hrules hexcludes ⊢
  have hhere := hrules [] children (descend?_nil _)
  rw [List.append_nil, List.append_nil] at hhere
  have hmoved : List.Forall₂ (FolderRules.MovedTo root root') [s.rulesOf root] [s'.rulesOf root'] :=
    .cons ⟨hhere, [], (List.append_nil _).symm, (List.append_nil _).symm⟩ .nil
  have hquiet : ∀ rules ∈ s.rulesAbove root, rules.SayNothing :=
    hs ▸ sayNothing_of_mem_rulesAbove habove
  have hquiet' : ∀ rules ∈ s'.rulesAbove root', rules.SayNothing :=
    hs' ▸ sayNothing_of_mem_rulesAbove habove'
  have hsame : s.SameSettings s' := by
    subst hs hs'
    exact ⟨rfl, rfl⟩
  -- the walks start at the end of the empty way, under the rules of the roots alone
  have hfiles :
      s'.filesAmong ([s'.rulesOf root'] ++ s'.rulesAbove root') (root' ++ []) s.levels
        (sortedChildren children) =
      (s.filesAmong ([s.rulesOf root] ++ s.rulesAbove root) (root ++ []) s.levels
        (sortedChildren children)).map (moveTo root root') :=
    filesAmong_moved hsame htests (hd.fileNames.of_descend? hroot)
      (hd'.fileNames.of_descend? hroot') hquiet hquiet' hmoved
      (by rwa [List.append_nil, List.append_nil]) (fun n hn => nomatch hn)
      (hd.distinct.of_descend? hroot) (hd.fileNames.inner_of_descend? hroot) hrules
  have hlevels : s'.levels = s.levels := by
    rw [levels, levels, hsame.settings]
  have hdisk : s.disk = d := by rw [← hs]; rfl
  have hdisk' : s'.disk = d' := by rw [← hs']; rfl
  rw [List.append_nil, List.append_nil] at hfiles
  rw [files_of_folder (hdisk' ▸ hroot'), files_of_folder (hdisk ▸ hroot), hlevels]
  exact hfiles

/-- **The place of a project makes no difference, except below a folder for
tests**, where nothing is found. Otherwise the files of a folder lie on ways
that are the same wherever it lies, if no folder above it has an ignore file
and the user's rules for all projects do not tell the two places apart, which
is so if there are none. An ignore file in it that is reached over a link, or
over a `.git` that is a file, has to say the same at both places, since it may
lead out of the folder. -/
theorem files_eq_ways (settings : Settings) (working working' : Location)
    (excludes excludes' : Option Path) (hd : d.WellFormed) (hd' : d'.WellFormed)
    (hroot : d.entry? root = some (.folder children))
    (hroot' : d'.entry? root' = some (.folder children))
    (habove : ∀ above, above <+: root → above ≠ root → NoIgnoreFiles d working above)
    (habove' : ∀ above, above <+: root' → above ≠ root' → NoIgnoreFiles d' working' above)
    (hrules : ∀ way inner, (Entry.folder children).descend? way = some (.folder inner) →
      FolderRules.OwnIgnoreFiles inner ∨
        ((Search.of d working excludes settings).rulesOf (root ++ way)).SameRules
          ((Search.of d' working' excludes' settings).rulesOf (root' ++ way)))
    (hexcludes : (Search.of d working excludes settings).ExcludesAlike
      (Search.of d' working' excludes' settings) root root' children) :
    ∃ ways : List Location,
      (Search.of d working excludes settings).files root =
        (if Path.testName ∈ root then [] else ways.map (root ++ ·)) ∧
      (Search.of d' working' excludes' settings).files root' =
        (if Path.testName ∈ root' then [] else ways.map (root' ++ ·)) := by
  have hsame : ∀ way inner, (Entry.folder children).descend? way = some (.folder inner) →
      ((Search.of d working excludes settings).rulesOf (root ++ way)).SameRules
        ((Search.of d' working' excludes' settings).rulesOf (root' ++ way)) := by
    intro way inner hway
    rcases hrules way inner hway with hown | hsame
    · exact hown.sameRules ((Disk.entry?_append hroot way).trans hway)
        ((Disk.entry?_append hroot' way).trans hway)
    · exact hsame
  by_cases htests : Path.testName ∈ root <;> by_cases htests' : Path.testName ∈ root'
  · simp only [if_pos htests, if_pos htests']
    exact ⟨[], files_of_tests hd htests, files_of_tests hd' htests'⟩
  · simp only [if_pos htests, if_neg htests']
    exact ⟨_, files_of_tests hd htests, map_append_drop_files.symm⟩
  · simp only [if_neg htests, if_pos htests']
    exact ⟨_, map_append_drop_files.symm, files_of_tests hd' htests'⟩
  · simp only [if_neg htests, if_neg htests']
    refine ⟨_, map_append_drop_files.symm, ?_⟩
    have hboth : root.contains Path.testName = root'.contains Path.testName := by
      rw [Bool.eq_iff_iff, List.contains_iff_mem, List.contains_iff_mem]
      exact iff_of_false htests htests'
    rw [files_moved hd hd' hroot hroot' habove habove' hsame hexcludes hboth, List.map_map]
    rfl

/-! ## A shop at two places -/

/-- The shop with rules, some of which are at a place that both shops share. -/
def sharingFolder : List (FileName × Entry) :=
  (Utf8.ofString ".ignore", .link (Path.ofString "/rules")) :: ruledFolder

/-- The disk with this folder at two places, one of them below a folder for
tests and the other below a folder that the settings leave out elsewhere; and
with the user's rules. -/
def twoShops : Disk :=
  ⟨[(Utf8.ofString "rules", .file (.ok (Utf8.ofString "blank.*"))),
    (Utf8.ofString "excludes", .file (.ok (Utf8.ofString "closed.*"))),
    (Path.testName, .folder [(Utf8.ofString "shop", .folder sharingFolder)]),
    (Utf8.ofString "dist", .folder [(Utf8.ofString "shop", .folder sharingFolder)])]⟩

theorem wellFormed_twoShops : twoShops.WellFormed := .of_areWellFormed (by decide)

/-- **A project below a folder for tests is not found**, while the same project
below a folder that is named in the ignore entries is, even where the user keeps
no rules for all projects. -/
theorem files_twoShops_ne :
    twoShops.entry? [Path.testName, Utf8.ofString "shop"] = some (.folder sharingFolder) ∧
    twoShops.entry? [Utf8.ofString "dist", Utf8.ofString "shop"] =
      some (.folder sharingFolder) ∧
    (∀ above ∈ [[], [Path.testName], [Utf8.ofString "dist"]], NoIgnoreFiles twoShops [] above) ∧
    ((Search.of twoShops [] none .standard).files [Path.testName, Utf8.ofString "shop"]).map
        (List.drop 2) ≠
      ((Search.of twoShops [] none .standard).files
        [Utf8.ofString "dist", Utf8.ofString "shop"]).map (List.drop 2) := by
  exact ⟨rfl, rfl, by decide +kernel, by decide +kernel⟩

/-- The folders of the shop. -/
theorem waysTo_sharingFolder :
    (Entry.folder sharingFolder).waysTo isFolder =
      [[], [Utf8.ofString "cart"], [Utf8.ofString "dist"]] := rfl

/-- Its rules are the same at both places, those over the link as well. -/
theorem rules_twoShops {way : Location} {inner : List (FileName × Entry)}
    (hway : (Entry.folder sharingFolder).descend? way = some (.folder inner)) :
    FolderRules.OwnIgnoreFiles inner ∨
      ((Search.of twoShops [] userExcludes .standard).rulesOf
        ([Utf8.ofString "dist", Utf8.ofString "shop"] ++ way)).SameRules
        ((Search.of twoShops [] userExcludes .standard).rulesOf
          ([Path.testName, Utf8.ofString "shop"] ++ way)) := by
  have hmem : way ∈ (Entry.folder sharingFolder).waysTo isFolder := mem_waysTo hway rfl
  rw [waysTo_sharingFolder] at hmem
  simp only [List.mem_cons, List.not_mem_nil, or_false] at hmem
  rcases hmem with rfl | rfl | rfl
  · exact .inr ⟨rfl, rfl, rfl⟩
  · cases hway
    exact .inl (by decide)
  · cases hway
    exact .inl (by decide)

/-- The user's rules say the same at both places. -/
theorem excludesAlike_twoShops :
    (Search.of twoShops [] userExcludes .standard).ExcludesAlike
      (Search.of twoShops [] userExcludes .standard) [Utf8.ofString "dist", Utf8.ofString "shop"]
      [Path.testName, Utf8.ofString "shop"] sharingFolder := by
  intro way e _ hway
  have hways : ∀ isFolder, ∀ way ∈ (Entry.folder sharingFolder).waysTo (·.isFolder == isFolder),
      (Search.of twoShops [] userExcludes .standard).exclude?
          ([Utf8.ofString "dist", Utf8.ofString "shop"] ++ way) isFolder =
        (Search.of twoShops [] userExcludes .standard).exclude?
          ([Path.testName, Utf8.ofString "shop"] ++ way) isFolder := by
    decide +kernel
  exact hways e.isFolder way (mem_waysTo hway (beq_self_eq_true _))

/-- No folder above the two shops has an ignore file. -/
theorem noIgnoreFiles_twoShops {name : FileName}
    (hname : name = Path.testName ∨ name = Utf8.ofString "dist") (above : Location)
    (habove : above <+: [name, Utf8.ofString "shop"])
    (hne : above ≠ [name, Utf8.ofString "shop"]) : NoIgnoreFiles twoShops [] above := by
  have hfolders : ∀ above ∈ [[], [Path.testName], [Utf8.ofString "dist"]],
      NoIgnoreFiles twoShops [] above := by
    decide +kernel
  have hmem := (List.mem_inits _ _).mpr habove
  simp only [List.inits, List.map_cons, List.map_nil, List.mem_cons, List.not_mem_nil,
    or_false] at hmem
  rcases hmem with rfl | rfl | rfl
  · exact hfolders [] (by simp)
  · exact hfolders [name] (by rcases hname with rfl | rfl <;> simp)
  · exact absurd rfl hne

/-- Of the two shops the one is found, with three source files. -/
theorem files_twoShops :
    twoShops.WellFormed ∧
    twoShops.entry? [Utf8.ofString "dist", Utf8.ofString "shop"] = some (.folder sharingFolder) ∧
    twoShops.entry? [Path.testName, Utf8.ofString "shop"] = some (.folder sharingFolder) ∧
    ∃ ways : List Location,
      (Search.of twoShops [] userExcludes .standard).files
        [Utf8.ofString "dist", Utf8.ofString "shop"] =
          ways.map ([Utf8.ofString "dist", Utf8.ofString "shop"] ++ ·) ∧
      (Search.of twoShops [] userExcludes .standard).files
        [Path.testName, Utf8.ofString "shop"] = [] ∧
      ways = [[Utf8.ofString ".cart.ts"], [Utf8.ofString "cart", Utf8.ofString "list.ts"],
        [Utf8.ofString "cart.ts"]] := by
  have hdist : twoShops.entry? [Utf8.ofString "dist", Utf8.ofString "shop"] =
      some (.folder sharingFolder) := rfl
  have htests : twoShops.entry? [Path.testName, Utf8.ofString "shop"] =
      some (.folder sharingFolder) := rfl
  obtain ⟨ways, hfound, hnone⟩ := files_eq_ways .standard [] [] userExcludes userExcludes
    wellFormed_twoShops wellFormed_twoShops hdist htests (noIgnoreFiles_twoShops (.inr rfl))
    (noIgnoreFiles_twoShops (.inl rfl)) (fun way inner hway => rules_twoShops hway)
    excludesAlike_twoShops
  rw [if_neg (by decide)] at hfound
  rw [if_pos (by decide)] at hnone
  refine ⟨wellFormed_twoShops, hdist, htests, ways, hfound, hnone, ?_⟩
  have hways : ((Search.of twoShops [] userExcludes .standard).files
      [Utf8.ofString "dist", Utf8.ofString "shop"]).map (List.drop 2) =
        [[Utf8.ofString ".cart.ts"], [Utf8.ofString "cart", Utf8.ofString "list.ts"],
          [Utf8.ofString "cart.ts"]] := by
    decide +kernel
  rw [← hways, hfound, List.map_map]
  exact (List.map_id ways).symm

end Search

end ExportAtlas
