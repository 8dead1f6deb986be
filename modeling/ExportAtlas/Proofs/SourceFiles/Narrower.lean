import Mathlib.Data.List.Flatten
import ExportAtlas.Proofs.Ignore.Names
import ExportAtlas.Proofs.SourceFiles.Walk
import ExportAtlas.Proofs.SourceFiles.WithoutRules
/-!
# Narrower searches

A search asks for less than another if it leaves out more names, allows fewer
extensions and goes less deep, while the rules of ignore files are the same for
both (`Search.AsksLess`). Each decision of its walk is then stricter, and the
walk enters no folder that the other one does not enter, so it finds nothing
else and nothing in another order (`Search.AsksLess.filesAmong`). More ignore
entries, fewer extensions and a smaller depth make such a search
(`Search.files_sublist`).
-/

namespace ExportAtlas

open Text Entry

namespace Search

variable {s s' : Search} {above : List FolderRules} {folder place root : Location}
  {levels levels' : Nat} {name : FileName} {e : Entry} {children : List (FileName × Entry)}

/-! ## Searches that ask for less -/

/-- A search asks for no more than another on the same disk. -/
structure AsksLess (s s' : Search) : Prop where
  disk : s.disk = s'.disk
  folder : s.folder = s'.folder
  /-- The rules of ignore files are the same. -/
  rules : ∀ place, s.rulesOf place = s'.rulesOf place
  excluded : s.excluded = s'.excluded
  ignores : ∀ name, s'.ignored.ignores name = true → s.ignored.ignores name = true
  allows : ∀ ext, s.settings.allowsExtension ext = true → s'.settings.allowsExtension ext = true
  levels : s.levels ≤ s'.levels

namespace AsksLess

/-- What it looks at is looked at by the other search, under the same rules. -/
theorem admits (h : s.AsksLess s') {isFolder : Bool}
    (hadmits : s.admits above place name isFolder = true) :
    s'.admits above place name isFolder = true := by
  have hdecide : s'.decide? above place isFolder = s.decide? above place isFolder := by
    rw [decide?, decide?, exclude?, exclude?, h.excluded, h.folder]
  rw [Search.admits, Bool.and_eq_true, Bool.not_eq_true'] at hadmits ⊢
  rw [hdecide]
  refine ⟨hadmits.1, Bool.eq_false_iff.mpr fun hignores => ?_⟩
  exact Bool.eq_false_iff.mp hadmits.2 (h.ignores _ hignores)

theorem allowsName (h : s.AsksLess s') (hallows : s.allowsName name = true) :
    s'.allowsName name = true := by
  obtain ⟨stem, ext, hname, hstem, hdot, hext⟩ := allowsName_iff.mp hallows
  exact allowsName_iff.mpr ⟨stem, ext, hname, hstem, hdot, h.allows ext hext⟩

theorem wants (h : s.AsksLess s') (hwants : s.wants place name = true) :
    s'.wants place name = true := by
  rw [Search.wants, Bool.and_eq_true, Bool.and_eq_true] at hwants ⊢
  exact ⟨⟨h.allowsName hwants.1.1, hwants.1.2⟩, hwants.2⟩

/-- **A search that asks for less finds no more**, and what it finds in the
same order. -/
theorem filesAmong (h : s.AsksLess s') (hlevels : levels ≤ levels') :
    (s.filesAmong above folder levels children).Sublist
      (s'.filesAmong above folder levels' children) := by
  induction levels generalizing levels' above folder children with
  | zero =>
    rw [filesAmong_zero]
    exact List.nil_sublist _
  | succ levels ih =>
    obtain ⟨levels', rfl⟩ := Nat.exists_eq_succ_of_ne_zero (by omega : levels' ≠ 0)
    rw [filesAmong_succ, filesAmong_succ]
    refine List.Sublist.flatMap_right _ fun ⟨name, e⟩ _ => ?_
    rw [filesUnder, filesUnder]
    split
    · rename_i hadmits
      rw [if_pos (h.admits hadmits)]
      cases e with
      | file content =>
        rw [filesOf, filesOf]
        split
        · rename_i hwants
          rw [if_pos (h.wants hwants)]
        · exact List.nil_sublist _
      | folder inner =>
        -- both walks go down with the rules of the same folders
        rw [filesOf, filesOf, h.rules]
        exact ih (Nat.le_of_succ_le_succ hlevels)
      | _ =>
        rw [filesOf]
        exact List.nil_sublist _
    · exact List.nil_sublist _

theorem files (h : s.AsksLess s') : (s.files root).Sublist (s'.files root) := by
  by_cases hroot : ∃ children, s.disk.entry? root = some (.folder children)
  · obtain ⟨children, hroot⟩ := hroot
    have habove : s.rulesAbove root = s'.rulesAbove root :=
      List.map_congr_left fun n _ => h.rules _
    rw [files_of_folder hroot, files_of_folder (h.disk ▸ hroot), h.rules, habove]
    exact h.filesAmong h.levels
  · rw [files_of_not_folder fun children hchildren => hroot ⟨children, hchildren⟩]
    exact List.nil_sublist _

end AsksLess

/-! ## Settings that ask for less -/

variable {settings settings' : Settings}

/-- **To restrict a search only takes files from what is found.** With more
ignore entries, fewer extensions and a smaller depth, what is found is a part
of what was found before, in the same order, whatever ignore files there are
and as long as those of version control count both times or not at all. -/
theorem files_sublist (d : Disk) (folder root : Location) (excludes : Option Path)
    (hgit : settings.respectGitignore = settings'.respectGitignore)
    (hignore : ∀ entry ∈ settings'.ignore, entry ∈ settings.ignore)
    (hextensions : ∀ ext ∈ settings.extensions, ext ∈ settings'.extensions)
    (hdepth : settings.maxDepth ≤ settings'.maxDepth) :
    ((Search.of d folder excludes settings).files root).Sublist
      ((Search.of d folder excludes settings').files root) := by
  refine AsksLess.files ⟨rfl, rfl, fun place => ?_, ?_,
    fun name => IgnoreNames.ignores_mono hignore, fun ext hext => ?_, ?_⟩
  · change FolderRules.ofPlace d folder settings.respectGitignore place = _
    rw [hgit]
    rfl
  · change UserRules.ofFile d folder settings.respectGitignore excludes = _
    rw [hgit]
    rfl
  · rw [Settings.allowsExtension, List.contains_iff_mem] at hext ⊢
    exact hextensions _ hext
  · change min (settings.maxDepth + 1) levelLimit ≤ min (settings'.maxDepth + 1) levelLimit
    omega

/-! ## A shop with rules -/

/-- The shop with a file of ignore rules, of which one shows what would be
hidden. -/
def ruledFolder : List (FileName × Entry) :=
  (Utf8.ofString ".gitignore", .file (.ok (Utf8.ofString "scan.*\n!/.cart.ts\n"))) :: shopFolder

/-- The disk with this folder and a file of the user's rules. -/
def ruledShop : Disk :=
  ⟨[(Utf8.ofString "shop", .folder ruledFolder),
    (Utf8.ofString "excludes", .file (.ok (Utf8.ofString "closed.*")))]⟩

/-- The path of that file. -/
def userExcludes : Option Path := some (Path.ofString "/excludes")

/-- Settings that leave out lists as well. -/
def narrowSettings : Settings :=
  { Settings.standard with
    extensions := [".ts"], ignore := Settings.standard.ignore ++ ["l?st.*"], maxDepth := 1 }

/-- Without lists three of the four files are found. -/
theorem files_ruledShop : narrowSettings.respectGitignore = Settings.standard.respectGitignore ∧
    (∀ entry ∈ Settings.standard.ignore, entry ∈ narrowSettings.ignore) ∧
    (∀ ext ∈ narrowSettings.extensions, ext ∈ Settings.standard.extensions) ∧
    narrowSettings.maxDepth ≤ Settings.standard.maxDepth ∧
    (Search.of ruledShop [] userExcludes narrowSettings).files [Utf8.ofString "shop"] =
      [[Utf8.ofString "shop", Utf8.ofString ".cart.ts"],
        [Utf8.ofString "shop", Utf8.ofString "blank.ts"],
        [Utf8.ofString "shop", Utf8.ofString "cart.ts"]] ∧
    ((Search.of ruledShop [] userExcludes .standard).files [Utf8.ofString "shop"]).length = 4 ∧
    ((Search.of ruledShop [] userExcludes narrowSettings).files [Utf8.ofString "shop"]).Sublist
      ((Search.of ruledShop [] userExcludes .standard).files [Utf8.ofString "shop"]) := by
  have hgit : narrowSettings.respectGitignore = Settings.standard.respectGitignore := rfl
  have hignore : ∀ entry ∈ Settings.standard.ignore, entry ∈ narrowSettings.ignore :=
    fun entry h => List.mem_append_left _ h
  have hextensions : ∀ ext ∈ narrowSettings.extensions, ext ∈ Settings.standard.extensions := by
    decide
  have hdepth : narrowSettings.maxDepth ≤ Settings.standard.maxDepth := by decide
  exact ⟨hgit, hignore, hextensions, hdepth, by decide +kernel, by decide +kernel,
    files_sublist ruledShop [] [Utf8.ofString "shop"] userExcludes hgit hignore hextensions hdepth⟩

end Search

end ExportAtlas
