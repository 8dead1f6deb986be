import Mathlib.Data.List.Lex
import ExportAtlas.Proofs.Disk.Ways
import ExportAtlas.SourceFiles
/-!
# The walk for source files

The walk goes through the children of a folder one after the other
(`Search.filesAmong_succ`), so what it finds under a child lies on the way of
that child (`Search.isPrefix_of_mem_filesUnder`). Whatever the ignore rules
say, it finds files and nothing else (`Search.exists_file_of_mem_files`), in
the order of their ways (`Search.pairwise_files`).
-/

namespace ExportAtlas

open Text Entry

namespace Search

variable {s : Search} {above : List FolderRules} {folder place : Location} {levels : Nat}
  {name : FileName} {e : Entry} {child : FileName × Entry}
  {children inner : List (FileName × Entry)}

/-! ## Steps of the walk -/

/-- The source files that a child of a folder is or holds, if it is admitted. -/
def filesUnder (s : Search) (above : List FolderRules) (folder : Location) (levels : Nat)
    (child : FileName × Entry) : List Location :=
  if s.admits above (folder ++ [child.1]) child.1 child.2.isFolder then
    s.filesOf above (folder ++ [child.1]) child.1 levels child.2
  else []

theorem filesAmong_zero : s.filesAmong above folder 0 children = [] := by
  cases children with
  | nil => rw [filesAmong]
  | cons x children =>
    rw [filesAmong]
    exact List.cons_ne_nil x children

/-- **The walk goes through the children one after the other.** -/
theorem filesAmong_succ : s.filesAmong above folder (levels + 1) children =
    children.flatMap (s.filesUnder above folder levels) := by
  induction children with
  | nil => rw [filesAmong, List.flatMap_nil]
  | cons x children ih =>
    obtain ⟨name, e⟩ := x
    cases e with
    | folder inner =>
      rw [filesAmong, ih, List.flatMap_cons]
      rfl
    | _ =>
      rw [filesAmong, ih, List.flatMap_cons]
      · rfl
      · exact nofun

theorem mem_filesUnder : place ∈ s.filesUnder above folder levels (name, e) ↔
    s.admits above (folder ++ [name]) name e.isFolder = true ∧
      place ∈ s.filesOf above (folder ++ [name]) name levels e := by
  rw [filesUnder]
  split
  · rename_i hadmits
    exact (and_iff_right hadmits).symm
  · rename_i hadmits
    exact iff_of_false List.not_mem_nil fun h => hadmits h.1

/-- **A place among the files of an entry** is the entry itself, a source file,
or lies below it. -/
theorem mem_filesOf : place ∈ s.filesOf above folder name levels e ↔
    (∃ content, e = .file content ∧ s.wants folder name = true ∧ place = folder) ∨
      ∃ inner, e = .folder inner ∧
        place ∈ s.filesAmong (s.rulesOf folder :: above) folder levels inner := by
  cases e with
  | file content =>
    rw [filesOf]
    by_cases hwants : s.wants folder name = true <;> simp [hwants]
  | folder inner =>
    rw [filesOf]
    simp
  | _ =>
    rw [filesOf]
    simp

theorem mem_filesOf_sorted : place ∈ s.filesOf above folder name levels e.sorted ↔
    (∃ content, e = .file content ∧ s.wants folder name = true ∧ place = folder) ∨
      ∃ inner, e = .folder inner ∧
        place ∈ s.filesAmong (s.rulesOf folder :: above) folder levels (sortedChildren inner) := by
  rw [mem_filesOf]
  cases e <;> rw [sorted] <;> simp

/-! ## The order of the walk -/

/-- **The files under a child lie on its way.** -/
theorem isPrefix_of_mem_filesUnder (h : place ∈ s.filesUnder above folder levels child) :
    folder ++ [child.1] <+: place := by
  induction levels generalizing above folder child with
  | zero =>
    obtain ⟨name, e⟩ := child
    rcases mem_filesOf.mp (mem_filesUnder.mp h).2 with ⟨content, rfl, -, rfl⟩ | ⟨inner, rfl, hmem⟩
    · exact List.prefix_rfl
    · rw [filesAmong_zero] at hmem
      cases hmem
  | succ levels ih =>
    obtain ⟨name, e⟩ := child
    rcases mem_filesOf.mp (mem_filesUnder.mp h).2 with ⟨content, rfl, -, rfl⟩ | ⟨inner, rfl, hmem⟩
    · exact List.prefix_rfl
    · rw [filesAmong_succ, List.mem_flatMap] at hmem
      obtain ⟨child, -, hmem⟩ := hmem
      exact (List.prefix_append _ _).trans (ih hmem)

/-- Places on the ways of different names are in the order of the names. -/
theorem lex_of_isPrefix {name name' : FileName} {place place' : Location} (hlt : name < name')
    (h : folder ++ [name] <+: place) (h' : folder ++ [name'] <+: place') :
    List.Lex (· < ·) place place' := by
  obtain ⟨rest, rfl⟩ := h
  obtain ⟨rest', rfl⟩ := h'
  rw [List.append_assoc, List.append_assoc]
  exact List.Lex.append_left _ (.rel hlt) folder

/-- **The walk finds the files in the order of their ways**, name by name. -/
theorem pairwise_filesAmong (h : DistinctNames children) :
    (s.filesAmong above folder levels (sortedChildren children)).Pairwise (List.Lex (· < ·)) := by
  induction levels generalizing above folder children with
  | zero =>
    rw [filesAmong_zero]
    exact List.Pairwise.nil
  | succ levels ih =>
    rw [filesAmong_succ, List.pairwise_flatMap]
    constructor
    · intro ⟨name, f⟩ hmem
      obtain ⟨e, he, rfl⟩ := mem_sortedChildren.mp hmem
      rw [filesUnder]
      split
      · cases e with
        | file content =>
          rw [sorted, filesOf]
          split
          · exact List.pairwise_singleton _ _
          · exact List.Pairwise.nil
        | folder inner =>
          rw [sorted, filesOf]
          exact ih (h.of_mem he)
        | _ =>
          rw [sorted, filesOf]
          exact List.Pairwise.nil
      · exact List.Pairwise.nil
    · refine (pairwise_sortedChildren h).imp fun hlt place hplace place' hplace' => ?_
      exact lex_of_isPrefix hlt (isPrefix_of_mem_filesUnder hplace)
        (isPrefix_of_mem_filesUnder hplace')

/-! ## What the walk finds -/

/-- **The walk finds files**, which lie below the folder. -/
theorem exists_file_of_mem (h : DistinctNames children)
    (hmem : place ∈ s.filesAmong above folder levels (sortedChildren children)) :
    ∃ way content, place = folder ++ way ∧
      (Entry.folder children).descend? way = some (.file content) := by
  induction levels generalizing above folder children with
  | zero =>
    rw [filesAmong_zero] at hmem
    cases hmem
  | succ levels ih =>
    rw [filesAmong_succ, List.mem_flatMap] at hmem
    obtain ⟨⟨name, f⟩, hchild, hplace⟩ := hmem
    obtain ⟨e, he, rfl⟩ := mem_sortedChildren.mp hchild
    have hlookup := h.lookup_eq_some_iff.mpr he
    rcases mem_filesOf_sorted.mp (mem_filesUnder.mp hplace).2 with
      ⟨content, rfl, -, rfl⟩ | ⟨inner, rfl, hbelow⟩
    · refine ⟨[name], content, rfl, ?_⟩
      rw [descend?_of_lookup hlookup, descend?_nil]
    · obtain ⟨way, content, rfl, hway⟩ := ih (h.of_mem he) hbelow
      refine ⟨name :: way, content, (List.append_cons folder name way).symm, ?_⟩
      rw [descend?_of_lookup hlookup, hway]

variable {root : Location}

/-- The walk starts at the root, if there is a folder. -/
theorem files_of_folder (hroot : s.disk.entry? root = some (.folder children)) : s.files root =
    s.filesAmong (s.rulesOf root :: s.rulesAbove root) root s.levels (sortedChildren children) := by
  rw [files, hroot]

theorem files_of_not_folder (hroot : ∀ children, s.disk.entry? root ≠ some (.folder children)) :
    s.files root = [] := by
  rw [files]
  split
  · rename_i children hchildren
    exact absurd hchildren (hroot children)
  · rfl

/-- **All that is found is a file on the disk.** -/
theorem exists_file_of_mem_files (h : DistinctNames s.disk.children) (hmem : place ∈ s.files root) :
    ∃ content, s.disk.entry? place = some (.file content) := by
  by_cases hroot : ∃ children, s.disk.entry? root = some (.folder children)
  · obtain ⟨children, hroot⟩ := hroot
    rw [files_of_folder hroot] at hmem
    obtain ⟨way, content, rfl, hway⟩ := exists_file_of_mem (h.of_descend? hroot) hmem
    exact ⟨content, (Disk.entry?_append hroot way).trans hway⟩
  · rw [files_of_not_folder fun children hchildren => hroot ⟨children, hchildren⟩] at hmem
    cases hmem

/-- **What is found is in order**, name by name. -/
theorem pairwise_files (h : DistinctNames s.disk.children) :
    (s.files root).Pairwise (List.Lex (· < ·)) := by
  by_cases hroot : ∃ children, s.disk.entry? root = some (.folder children)
  · obtain ⟨children, hroot⟩ := hroot
    rw [files_of_folder hroot]
    exact pairwise_filesAmong (h.of_descend? hroot)
  · rw [files_of_not_folder fun children hchildren => hroot ⟨children, hchildren⟩]
    exact List.Pairwise.nil

/-- Nothing is found twice. -/
theorem nodup_files (h : DistinctNames s.disk.children) : (s.files root).Nodup := by
  refine (pairwise_files h).imp fun {place place'} hlex heq => ?_
  rw [heq] at hlex
  exact List.lex_irrefl (fun name => List.lt_irrefl name) place' hlex

end Search

end ExportAtlas
