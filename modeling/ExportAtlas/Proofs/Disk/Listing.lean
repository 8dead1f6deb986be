import Mathlib.Data.List.Basic
import ExportAtlas.Disk.Basic
import ExportAtlas.Proofs.KeyedList
/-!
# How folders are listed

A folder lists its entries in no particular order, so the same folder may be
listed in different ways, and so may every folder below it (`Relisted`). What
is certain is that no two entries of a folder share a name
(`DistinctNames`), so that a name leads to the entry listed under it
(`DistinctNames.lookup_eq_some_iff`).
-/

namespace ExportAtlas

namespace Entry

variable {children children' : List (FileName × Entry)} {name : FileName} {e : Entry}

/-- Two listings of the same entries, which may differ in order here and in
every folder below. -/
inductive Relisted : (children children' : List (FileName × Entry)) → Prop
  | nil : Relisted [] []
  /-- The entry that is listed first is the same. -/
  | entry {children children' : List (FileName × Entry)} (first : FileName × Entry)
      (h : Relisted children children') : Relisted (first :: children) (first :: children')
  /-- A folder is listed first both times, but itself listed in two ways. -/
  | folder {children children' inner inner' : List (FileName × Entry)} (name : FileName)
      (hinner : Relisted inner inner') (h : Relisted children children') :
      Relisted ((name, .folder inner) :: children) ((name, .folder inner') :: children')
  | swap (x y : FileName × Entry) (children : List (FileName × Entry)) :
      Relisted (x :: y :: children) (y :: x :: children)
  | trans {children children' children'' : List (FileName × Entry)}
      (h : Relisted children children') (h' : Relisted children' children'') :
      Relisted children children''

/-- No two entries of a folder share a name, here and in every folder
below. -/
inductive DistinctNames : List (FileName × Entry) → Prop
  | nil : DistinctNames []
  | cons {name : FileName} {e : Entry} {children : List (FileName × Entry)}
      (hname : name ∉ children.map Prod.fst)
      (hinner : ∀ inner, e = .folder inner → DistinctNames inner)
      (h : DistinctNames children) : DistinctNames ((name, e) :: children)

/-- **Any two orders are two listings.** -/
theorem Relisted.of_perm (h : children.Perm children') : Relisted children children' := by
  induction h with
  | nil => exact .nil
  | cons first _ ih => exact ih.entry first
  | swap x y children => exact .swap y x children
  | trans _ _ ih ih' => exact ih.trans ih'

/-- The names are the same in every listing. -/
theorem Relisted.map_fst (h : Relisted children children') :
    (children.map Prod.fst).Perm (children'.map Prod.fst) := by
  induction h with
  | nil => exact List.Perm.nil
  | entry first _ ih => exact ih.cons first.1
  | folder name _ _ _ ih => exact ih.cons name
  | swap x y children => exact List.Perm.swap y.1 x.1 _
  | trans _ _ ih ih' => exact ih.trans ih'

/-- **Names are distinct in every listing** or in none. -/
theorem DistinctNames.relisted (hdistinct : DistinctNames children)
    (h : Relisted children children') : DistinctNames children' := by
  induction h with
  | nil => exact hdistinct
  | entry first h ih =>
    cases hdistinct with
    | cons hname hinner hrest =>
      exact .cons (fun hmem => hname (h.map_fst.mem_iff.mpr hmem)) hinner (ih hrest)
  | @folder _ _ inner inner' name _ h ihinner ih =>
    cases hdistinct with
    | cons hname hinner hrest =>
      refine .cons (fun hmem => hname (h.map_fst.mem_iff.mpr hmem)) (fun below hbelow => ?_)
        (ih hrest)
      obtain rfl : inner' = below := Entry.folder.inj hbelow
      exact ihinner (hinner inner rfl)
  | swap x y children =>
    cases hdistinct with
    | cons hx hxinner hrest =>
      cases hrest with
      | cons hy hyinner hrest =>
        rw [List.map_cons, List.mem_cons, not_or] at hx
        refine .cons ?_ hyinner (.cons hx.2 hxinner hrest)
        rw [List.map_cons, List.mem_cons, not_or]
        exact ⟨Ne.symm hx.1, hy⟩
  | trans _ _ ih ih' => exact ih' (ih hdistinct)

/-- Names are distinct in the folders below. -/
theorem DistinctNames.of_mem {inner : List (FileName × Entry)} (hdistinct : DistinctNames children)
    (h : (name, Entry.folder inner) ∈ children) : DistinctNames inner := by
  induction hdistinct with
  | nil => cases h
  | cons _ hinner _ _ ih =>
    rcases List.mem_cons.mp h with heq | hmem
    · exact hinner inner (Prod.mk.inj heq).2.symm
    · exact ih hmem

theorem DistinctNames.nodup (hdistinct : DistinctNames children) :
    (children.map Prod.fst).Nodup := by
  induction hdistinct with
  | nil => exact List.nodup_nil
  | cons hname _ _ _ ih => exact List.nodup_cons.mpr ⟨hname, ih⟩

/-- **A name leads to the entry listed under it.** -/
theorem DistinctNames.lookup_eq_some_iff (hdistinct : DistinctNames children) :
    children.lookup name = some e ↔ (name, e) ∈ children :=
  KeyedList.lookup_eq_some_iff hdistinct.nodup

end Entry

end ExportAtlas
