import Mathlib.Data.List.Induction
import Mathlib.Data.List.Nodup
import Mathlib.Data.String.Basic
import ExportAtlas.Proofs.KeyedList
import ExportAtlas.Report.FolderTree
/-!
# Files put into a folder

A folder of the drawing is looked at through what stands at a position: a file
(`Folder.fileAt?`), or a folder on the way to one (`Folder.hasFolder`). To
insert a file sets its position and makes the folders on the way to it, and
changes nothing else (`Folder.Ordered.fileAt?_insert`,
`Folder.Ordered.hasFolder_insert`). So after many files each position holds
the last file that was put there (`FolderTree.fileAt?_arrange`), and there are
those folders that lead to one (`FolderTree.hasFolder_arrange`).
-/

namespace ExportAtlas

namespace Report

namespace Folder

/-! ## Entries in order -/

section Alter

variable {α : Type} {key k : String} {change : Option α → α} {l : List (String × α)}

/-- Entries stand in the strict order of their keys. -/
def InOrder (l : List (String × α)) : Prop := l.Pairwise fun a b => a.1 < b.1

theorem lookup_eq_none_of_lt (h : ∀ e ∈ l, key < e.1) : l.lookup key = none := by
  rw [List.lookup_eq_none_iff]
  exact fun e he => bne_iff_ne.mpr (h e he).ne

theorem forall_mem_alter {p : String → Prop} (hkey : p key) (h : ∀ e ∈ l, p e.1) :
    ∀ e ∈ alter key change l, p e.1 := by
  induction l with
  | nil => exact List.forall_mem_singleton.mpr hkey
  | cons x l ih =>
    rw [List.forall_mem_cons] at h
    rw [alter]
    split
    · exact List.forall_mem_cons.mpr h
    split
    · exact List.forall_mem_cons.mpr ⟨hkey, List.forall_mem_cons.mpr h⟩
    · exact List.forall_mem_cons.mpr ⟨h.1, ih h.2⟩

theorem InOrder.alter (h : InOrder l) : InOrder (Folder.alter key change l) := by
  induction l with
  | nil => exact List.pairwise_singleton _ _
  | cons x l ih =>
    obtain ⟨hx, hl⟩ := List.pairwise_cons.mp h
    rw [Folder.alter]
    split
    · exact List.pairwise_cons.mpr ⟨hx, hl⟩
    split
    · rename_i hlt
      exact List.pairwise_cons.mpr
        ⟨List.forall_mem_cons.mpr ⟨hlt, fun e he => hlt.trans (hx e he)⟩, h⟩
    · rename_i hne hlt
      have hgt : x.1 < key := lt_of_le_of_ne (not_lt.mp hlt) hne
      exact List.pairwise_cons.mpr ⟨forall_mem_alter hgt hx, ih hl⟩

/-- **The entry of a key is changed**, and no other. -/
theorem InOrder.lookup_alter (h : InOrder l) : (Folder.alter key change l).lookup k =
    if k = key then some (change (l.lookup key)) else l.lookup k := by
  induction l with
  | nil => exact KeyedList.lookup_cons_eq_ite
  | cons x l ih =>
    obtain ⟨hx, hl⟩ := List.pairwise_cons.mp h
    obtain ⟨k', v⟩ := x
    rw [Folder.alter, KeyedList.lookup_cons_eq_ite, KeyedList.lookup_cons_eq_ite]
    split
    · rename_i hkey
      subst hkey
      rw [KeyedList.lookup_cons_eq_ite, if_pos rfl]
      split <;> rfl
    rename_i hkey
    rw [if_neg (Ne.symm hkey)]
    split
    · rename_i hlt
      -- the key is none of those that follow
      have hnone : l.lookup key = none := lookup_eq_none_of_lt fun e he => hlt.trans (hx e he)
      rw [KeyedList.lookup_cons_eq_ite, KeyedList.lookup_cons_eq_ite, hnone]
    · rw [KeyedList.lookup_cons_eq_ite, ih hl]
      split
      · rename_i hk
        rw [if_neg fun hk' => hkey (hk.symm.trans hk')]
      · rfl

theorem InOrder.nodup (h : InOrder l) : (l.map Prod.fst).Nodup :=
  List.pairwise_map.mpr (h.imp ne_of_lt)

theorem InOrder.lookup_eq_some_iff (h : InOrder l) {v : α} :
    l.lookup k = some v ↔ (k, v) ∈ l :=
  KeyedList.lookup_eq_some_iff h.nodup

end Alter

/-! ## What stands at a position -/

/-- The file at a position. -/
def fileAt? : (position : List String) → Folder → Option FileRecord
  | [], _ => none
  | [name], mk _ files => files.lookup name
  | folder :: position, mk folders _ => (folders.lookup folder).bind (fileAt? position)

/-- There is a folder at a position; the folder itself stands at the empty one. -/
def hasFolder : (position : List String) → Folder → Bool
  | [], _ => true
  | folder :: position, mk folders _ => (folders.lookup folder).any (hasFolder position)

/-- In a folder and in all below it, sub-folders and files stand in the order of
their names. -/
inductive Ordered : Folder → Prop where
  | mk {folders : List (String × Folder)} {files : List (String × FileRecord)}
    (hfolders : InOrder folders) (hfiles : InOrder files) (hbelow : ∀ f ∈ folders, Ordered f.2) :
    Ordered (.mk folders files)

variable {folder : Folder} {file : FileRecord} {p q : List String}

theorem ordered_empty : Ordered empty :=
  .mk List.Pairwise.nil List.Pairwise.nil fun _ h => absurd h List.not_mem_nil

theorem insert_cons_cons (name name' : String) (p : List String)
    (folders : List (String × Folder)) (files : List (String × FileRecord)) :
    (mk folders files).insert file (name :: name' :: p) =
      mk (alter name (fun f => (f.getD empty).insert file (name' :: p)) folders) files := rfl

theorem fileAt?_cons {name : String} (hp : p ≠ []) (folders : List (String × Folder))
    (files : List (String × FileRecord)) :
    fileAt? (name :: p) (mk folders files) = (folders.lookup name).bind (fileAt? p) := by
  obtain ⟨name', p, rfl⟩ := List.exists_cons_of_ne_nil hp
  rfl

/-- A folder that is not there holds no files. -/
theorem fileAt?_getD (o : Option Folder) : fileAt? p (o.getD empty) = o.bind (fileAt? p) := by
  cases o with
  | some folder => rfl
  | none =>
    match p with
    | [] => rfl
    | [_] => rfl
    | _ :: _ :: _ => rfl

/-- Nor folders, but to put something there makes it. -/
theorem hasFolder_getD (o : Option Folder) :
    hasFolder p (o.getD empty) = true ↔ p = [] ∨ o.any (hasFolder p) = true := by
  cases p with
  | nil => simp [hasFolder]
  | cons name p => cases o <;> simp [hasFolder, empty]

theorem Ordered.getD_lookup {name : String} {folders : List (String × Folder)}
    (hfolders : InOrder folders) (hbelow : ∀ f ∈ folders, Ordered f.2) :
    Ordered ((folders.lookup name).getD empty) := by
  cases hlookup : folders.lookup name with
  | none => exact ordered_empty
  | some inner => exact hbelow _ (hfolders.lookup_eq_some_iff.mp hlookup)

theorem mem_alter {α : Type} {key : String} {change : Option α → α} {l : List (String × α)}
    (h : InOrder l) {e : String × α} (he : e ∈ alter key change l) :
    e = (key, change (l.lookup key)) ∨ e ∈ l := by
  obtain ⟨k, v⟩ := e
  rw [← h.alter.lookup_eq_some_iff, h.lookup_alter] at he
  split at he
  · rename_i hk
    exact .inl (Prod.ext hk (Option.some.inj he).symm)
  · exact .inr (h.lookup_eq_some_iff.mp he)

/-- **Order is kept** by every insertion. -/
theorem Ordered.insert (h : Ordered folder) : Ordered (folder.insert file p) := by
  induction p generalizing folder with
  | nil => exact h
  | cons name p ih =>
    obtain ⟨hfolders, hfiles, hbelow⟩ := h
    cases p with
    | nil => exact .mk hfolders hfiles.alter hbelow
    | cons name' p =>
      refine .mk hfolders.alter hfiles fun f hf => ?_
      rcases mem_alter hfolders hf with rfl | hf
      · exact ih (getD_lookup hfolders hbelow)
      · exact hbelow f hf

/-- **A file that is inserted stands at its position**, and no other moves. -/
theorem Ordered.fileAt?_insert (h : Ordered folder) (hq : q ≠ []) :
    fileAt? q (folder.insert file p) = if q = p then some file else fileAt? q folder := by
  induction p generalizing folder q with
  | nil => rw [if_neg hq, Folder.insert]
  | cons name p ih =>
    obtain ⟨hfolders, hfiles, hbelow⟩ := h
    cases p with
    | nil =>
      match q, hq with
      | [n], _ => simp [Folder.insert, fileAt?, hfiles.lookup_alter]
      | n :: n' :: q, _ => simp [Folder.insert, fileAt?]
    | cons name' p =>
      match q, hq with
      | [n], _ => simp [Folder.insert, fileAt?]
      | n :: n' :: q, _ =>
        rw [insert_cons_cons, fileAt?_cons (by simp), fileAt?_cons (by simp),
          hfolders.lookup_alter]
        by_cases hn : n = name
        · rw [if_pos hn, hn, Option.bind_some, ih (getD_lookup hfolders hbelow) (by simp),
            fileAt?_getD]
          simp
        · rw [if_neg hn, if_neg fun heq => hn (List.cons.inj heq).1]

/-- **The folders on the way to it are made**, and no others. -/
theorem Ordered.hasFolder_insert (h : Ordered folder) :
    hasFolder q (folder.insert file p) = true ↔
      hasFolder q folder = true ∨ q <+: p ∧ q ≠ p := by
  induction p generalizing folder q with
  | nil => simp [Folder.insert]
  | cons name p ih =>
    obtain ⟨hfolders, hfiles, hbelow⟩ := h
    cases q with
    | nil => simp [hasFolder]
    | cons n q =>
      cases p with
      | nil =>
        have hq : ¬ (n :: q <+: [name] ∧ n :: q ≠ [name]) := by
          rw [List.cons_prefix_cons, List.prefix_nil]
          rintro ⟨⟨rfl, rfl⟩, hne⟩
          exact hne rfl
        rw [or_iff_left hq]
        simp [Folder.insert, hasFolder]
      | cons name' p =>
        rw [insert_cons_cons, hasFolder, hasFolder, hfolders.lookup_alter, List.cons_prefix_cons,
          ne_eq, List.cons.injEq]
        by_cases hn : n = name
        · subst hn
          rw [if_pos rfl, Option.any_some, ih (getD_lookup hfolders hbelow), hasFolder_getD]
          -- the sub-folder itself is on the way
          have hnil : q = [] → q <+: name' :: p ∧ q ≠ name' :: p := by
            rintro rfl
            exact ⟨List.nil_prefix, nofun⟩
          tauto
        · simp [hn]

end Folder

namespace FolderTree

open Folder

variable {root : Path} {files : List FileRecord} {p : List String}

/-! ## Many files -/

theorem arrange_concat (root : Path) (files : List FileRecord) (file : FileRecord) :
    arrange root (files ++ [file]) = (arrange root files).insert file (position root file) := by
  rw [arrange, List.foldl_append]
  rfl

theorem ordered_arrange (root : Path) (files : List FileRecord) : Ordered (arrange root files) := by
  induction files using List.reverseRecOn with
  | nil => exact ordered_empty
  | append_singleton files file ih =>
    rw [arrange_concat]
    exact ih.insert

/-- **A position holds the last file that was put there.** -/
theorem fileAt?_arrange (hp : p ≠ []) : fileAt? p (arrange root files) =
    (files.filter fun file => position root file = p).getLast? := by
  induction files using List.reverseRecOn with
  | nil => exact fileAt?_getD none
  | append_singleton files file ih =>
    rw [arrange_concat, (ordered_arrange root files).fileAt?_insert hp, ih, List.filter_append]
    by_cases hfile : p = position root file
    · simp [hfile]
    · simp [hfile, Ne.symm hfile]

/-- **There are the folders that lead to a file**, and no others. -/
theorem hasFolder_arrange : hasFolder p (arrange root files) = true ↔
    p = [] ∨ ∃ file ∈ files, p <+: position root file ∧ p ≠ position root file := by
  induction files using List.reverseRecOn with
  | nil => cases p <;> simp [arrange, hasFolder, Folder.empty]
  | append_singleton files file ih =>
    rw [arrange_concat, (ordered_arrange root files).hasFolder_insert, ih, or_assoc]
    simp [or_and_right, exists_or]

end FolderTree

end Report

end ExportAtlas
