import ExportAtlas.Proofs.Disk.Listing
import ExportAtlas.Proofs.Path
/-!
# Ways on a disk

A disk as there can be one lists under each folder different names, and only
such as a folder can list (`Disk.WellFormed`); so all names on a way are file
names (`FileNames.of_descend?`). A folder put in order lists what it listed
before, one entry after the other by the bytes of their names
(`sortedChildren_perm`, `pairwise_sortedChildren`).
-/

namespace ExportAtlas

namespace Entry

variable {children : List (FileName × Entry)} {name : FileName} {e f : Entry}
  {way way' : Location}

/-! ## Ways down -/

theorem descend?_nil (e : Entry) : e.descend? [] = some e := by
  cases e <;> rfl

theorem descend?_folder_cons : (Entry.folder children).descend? (name :: way) =
    (children.lookup name).bind fun e => e.descend? way := by
  rw [descend?]

theorem descend?_of_lookup (he : children.lookup name = some e) :
    (Entry.folder children).descend? (name :: way) = e.descend? way := by
  rw [descend?_folder_cons, he, Option.bind_some]

/-- A way is gone in two parts. -/
theorem descend?_append (e : Entry) (way way' : Location) :
    e.descend? (way ++ way') = (e.descend? way).bind fun f => f.descend? way' := by
  induction way generalizing e with
  | nil => rw [List.nil_append, descend?_nil, Option.bind_some]
  | cons name way ih =>
    cases e with
    | folder children =>
      rw [List.cons_append, descend?_folder_cons, descend?_folder_cons, Option.bind_assoc]
      exact Option.bind_congr fun f _ => ih f
    | _ => rfl

/-- A way that goes on leads through a folder. -/
theorem descend?_cons_eq_some_iff : e.descend? (name :: way) = some f ↔
    ∃ children g, e = .folder children ∧ children.lookup name = some g ∧
      g.descend? way = some f := by
  cases e with
  | folder children =>
    rw [descend?_folder_cons, Option.bind_eq_some_iff]
    constructor
    · rintro ⟨g, hg, hf⟩
      exact ⟨children, g, rfl, hg, hf⟩
    · rintro ⟨children', g, heq, hg, hf⟩
      obtain rfl := Entry.folder.inj heq
      exact ⟨g, hg, hf⟩
  | _ => exact ⟨nofun, nofun⟩

/-! ## File names -/

/-- Every name that is listed is one that a folder can list, here and in every
folder below. -/
inductive FileNames : List (FileName × Entry) → Prop
  | nil : FileNames []
  | cons {name : FileName} {e : Entry} {children : List (FileName × Entry)}
      (hname : IsFileName name) (hinner : ∀ inner, e = .folder inner → FileNames inner)
      (h : FileNames children) : FileNames ((name, e) :: children)

theorem FileNames.of_lookup (h : FileNames children) (he : children.lookup name = some e) :
    IsFileName name ∧ ∀ inner, e = .folder inner → FileNames inner := by
  induction h with
  | nil => cases he
  | @cons n f children hname hinner _ _ ih =>
    rw [KeyedList.lookup_cons_eq_ite] at he
    split at he
    · rename_i hn
      obtain rfl := Option.some.inj he
      exact ⟨hn ▸ hname, hinner⟩
    · exact ih he

/-- **The names on a way are file names.** -/
theorem FileNames.of_descend? (h : FileNames children)
    (hway : (Entry.folder children).descend? way = some f) : ∀ n ∈ way, IsFileName n := by
  induction way generalizing children with
  | nil => exact fun n hn => nomatch hn
  | cons name way ih =>
    obtain ⟨children', g, heq, hg, hf⟩ := descend?_cons_eq_some_iff.mp hway
    obtain rfl := Entry.folder.inj heq
    have hname := h.of_lookup hg
    refine List.forall_mem_cons.mpr ⟨hname.1, ?_⟩
    cases way with
    | nil => exact fun n hn => nomatch hn
    | cons name' way =>
      obtain ⟨inner, _, rfl, -, -⟩ := descend?_cons_eq_some_iff.mp hf
      exact ih (hname.2 inner rfl) hf

/-- Names are distinct in the folder at the end of a way. -/
theorem DistinctNames.of_descend? {inner : List (FileName × Entry)} (h : DistinctNames children)
    (hway : (Entry.folder children).descend? way = some (.folder inner)) :
    DistinctNames inner := by
  induction way generalizing children with
  | nil =>
    rw [descend?_nil, Option.some.injEq, Entry.folder.injEq] at hway
    exact hway ▸ h
  | cons name way ih =>
    obtain ⟨children', g, heq, hg, hf⟩ := descend?_cons_eq_some_iff.mp hway
    obtain rfl := Entry.folder.inj heq
    have hmem := h.lookup_eq_some_iff.mp hg
    cases way with
    | nil =>
      rw [descend?_nil, Option.some.injEq] at hf
      exact h.of_mem (hf ▸ hmem)
    | cons name' way =>
      obtain ⟨below, _, rfl, -, -⟩ := descend?_cons_eq_some_iff.mp hf
      exact ih (h.of_mem hmem) hf

/-- And file names are listed in it. -/
theorem FileNames.inner_of_descend? {inner : List (FileName × Entry)} (h : FileNames children)
    (hway : (Entry.folder children).descend? way = some (.folder inner)) : FileNames inner := by
  induction way generalizing children with
  | nil =>
    rw [descend?_nil, Option.some.injEq, Entry.folder.injEq] at hway
    exact hway ▸ h
  | cons name way ih =>
    obtain ⟨children', g, heq, hg, hf⟩ := descend?_cons_eq_some_iff.mp hway
    obtain rfl := Entry.folder.inj heq
    have hinner := (h.of_lookup hg).2
    cases way with
    | nil =>
      rw [descend?_nil, Option.some.injEq] at hf
      exact hinner inner hf
    | cons name' way =>
      obtain ⟨below, _, rfl, -, -⟩ := descend?_cons_eq_some_iff.mp hf
      exact ih (hinner below rfl) hf

/-! ## Folders in order -/

/-- Putting an entry in its place adds it and nothing else. -/
theorem insertSorted_perm (name : FileName) (e : Entry) (children : List (FileName × Entry)) :
    (insertSorted name e children).Perm ((name, e) :: children) := by
  induction children with
  | nil => exact List.Perm.refl _
  | cons x children ih =>
    rw [insertSorted]
    split
    · exact List.Perm.refl _
    · exact (ih.cons x).trans (List.Perm.swap _ _ _)

theorem pairwise_insertSorted (h : children.Pairwise fun x y => x.1 < y.1)
    (hname : name ∉ children.map Prod.fst) :
    (insertSorted name e children).Pairwise fun x y => x.1 < y.1 := by
  induction children with
  | nil => exact List.pairwise_singleton _ _
  | cons x children ih =>
    obtain ⟨hx, hrest⟩ := List.pairwise_cons.mp h
    rw [List.map_cons, List.mem_cons, not_or] at hname
    rw [insertSorted]
    split
    · rename_i hle
      have hlt : name < x.1 := (List.le_iff_lt_or_eq.mp hle).resolve_right hname.1
      refine h.cons fun y hy => ?_
      rcases List.mem_cons.mp hy with rfl | hy
      · exact hlt
      · exact List.lt_trans hlt (hx y hy)
    · rename_i hle
      refine (ih hrest hname.2).cons fun y hy => ?_
      rcases List.mem_cons.mp ((insertSorted_perm name e children).mem_iff.mp hy) with rfl | hy
      · exact List.not_le.mp hle
      · exact hx y hy

/-- **A folder in order lists what it listed before.** -/
theorem sortedChildren_perm (children : List (FileName × Entry)) :
    (sortedChildren children).Perm (children.map fun x => (x.1, x.2.sorted)) := by
  induction children with
  | nil => rw [sortedChildren]; exact List.Perm.refl _
  | cons x children ih =>
    rw [sortedChildren]
    exact (insertSorted_perm _ _ _).trans (ih.cons _)

theorem mem_sortedChildren : (name, f) ∈ sortedChildren children ↔
    ∃ e, (name, e) ∈ children ∧ e.sorted = f := by
  rw [(sortedChildren_perm children).mem_iff, List.mem_map]
  constructor
  · rintro ⟨⟨n, e⟩, hmem, heq⟩
    obtain ⟨rfl, rfl⟩ := Prod.mk.inj heq
    exact ⟨e, hmem, rfl⟩
  · rintro ⟨e, hmem, rfl⟩
    exact ⟨(name, e), hmem, rfl⟩

/-- **Entries with distinct names stand one after the other by their names.** -/
theorem pairwise_sortedChildren (h : DistinctNames children) :
    (sortedChildren children).Pairwise fun x y => x.1 < y.1 := by
  induction h with
  | nil => rw [sortedChildren]; exact List.Pairwise.nil
  | @cons name e children hname _ _ _ ih =>
    rw [sortedChildren]
    refine pairwise_insertSorted ih fun hmem => hname ?_
    rw [((sortedChildren_perm children).map Prod.fst).mem_iff, List.map_map] at hmem
    exact hmem

/-! ## Height -/

mutual

/-- How many levels lie below an entry. -/
def height : Entry → Nat
  | .file _ => 0
  | .folder children => heightAmong children
  | .link _ => 0
  | .device => 0

/-- How many levels the children of a folder and what lies below them make. -/
def heightAmong : List (FileName × Entry) → Nat
  | [] => 0
  | (_, e) :: rest => max (e.height + 1) (heightAmong rest)

end

/-- An entry is a folder. -/
def isFolder : Entry → Bool
  | .folder _ => true
  | _ => false

theorem isFolder_sorted (e : Entry) : e.sorted.isFolder = e.isFolder := by
  cases e with
  | folder children =>
    rw [sorted]
    rfl
  | _ => rw [sorted]

mutual

/-- The ways to the entries with a property that an entry is or holds. -/
def waysTo (p : Entry → Bool) : Entry → List Location
  | .folder children =>
    (if p (.folder children) then [[]] else []) ++ waysAmong p children
  | e => if p e then [[]] else []

/-- The ways to such entries among the children of a folder and below them. -/
def waysAmong (p : Entry → Bool) : List (FileName × Entry) → List Location
  | [] => []
  | (name, e) :: rest => (e.waysTo p).map (name :: ·) ++ waysAmong p rest

end

variable {p : Entry → Bool}

theorem mem_waysAmong (he : children.lookup name = some e) (hway : way ∈ e.waysTo p) :
    name :: way ∈ waysAmong p children := by
  induction children with
  | nil => cases he
  | cons x children ih =>
    obtain ⟨n, g⟩ := x
    rw [KeyedList.lookup_cons_eq_ite] at he
    rw [waysAmong, List.mem_append]
    split at he
    · rename_i hn
      obtain rfl := Option.some.inj he
      exact .inl (hn ▸ List.mem_map_of_mem hway)
    · exact .inr (ih he)

/-- **All entries with the property are found on these ways.** -/
theorem mem_waysTo (h : e.descend? way = some f) (hp : p f = true) : way ∈ e.waysTo p := by
  induction way generalizing e with
  | nil =>
    rw [descend?_nil, Option.some.injEq] at h
    subst h
    cases e <;> simp [waysTo, hp]
  | cons name way ih =>
    obtain ⟨children, g, rfl, hg, hway⟩ := descend?_cons_eq_some_iff.mp h
    rw [waysTo]
    exact List.mem_append_right _ (mem_waysAmong hg (ih hway))

/-! ## Well-formed listings -/

mutual

/-- The folders in an entry list different names, each of which is a file
name. -/
def isWellFormed : Entry → Bool
  | .file _ => true
  | .folder children => areWellFormed children
  | .link _ => true
  | .device => true

/-- The same, of the children of a folder and what lies below them. -/
def areWellFormed : List (FileName × Entry) → Bool
  | [] => true
  | (name, e) :: rest =>
    decide (IsFileName name) && !(rest.map Prod.fst).contains name && e.isWellFormed &&
      areWellFormed rest

end

mutual

/-- What is computed of an entry holds of its folders. -/
theorem names_of_isWellFormed : ∀ {e : Entry}, e.isWellFormed = true →
    ∀ inner, e = .folder inner → DistinctNames inner ∧ FileNames inner
  | .folder children, h, inner, heq => by
    rw [isWellFormed] at h
    rw [← Entry.folder.inj heq]
    exact names_of_areWellFormed h
  | .file _, _, _, heq => by cases heq
  | .link _, _, _, heq => by cases heq
  | .device, _, _, heq => by cases heq

/-- **What is computed of a listing holds of it.** -/
theorem names_of_areWellFormed : ∀ {children : List (FileName × Entry)},
    areWellFormed children = true → DistinctNames children ∧ FileNames children
  | [], _ => ⟨.nil, .nil⟩
  | (name, e) :: children, h => by
    simp only [areWellFormed, Bool.and_eq_true, decide_eq_true_eq, Bool.not_eq_true',
      ← Bool.not_eq_true, List.contains_iff_mem] at h
    obtain ⟨⟨⟨hname, hnew⟩, he⟩, hrest⟩ := h
    have hinner := names_of_isWellFormed he
    have hchildren := names_of_areWellFormed hrest
    exact ⟨.cons hnew (fun inner heq => (hinner inner heq).1) hchildren.1,
      .cons hname (fun inner heq => (hinner inner heq).2) hchildren.2⟩

end

end Entry

/-- What is on the way from a place is found from there. -/
theorem Disk.entry?_append {d : Disk} {place : Location} {e : Entry} (h : d.entry? place = some e)
    (way : Location) : d.entry? (place ++ way) = e.descend? way := by
  rw [Disk.entry?] at h
  rw [Disk.entry?, Entry.descend?_append, h, Option.bind_some]

/-- A disk as there can be one: the entries of a folder have different names,
and each name is one that a folder can list. -/
structure Disk.WellFormed (d : Disk) : Prop where
  distinct : Entry.DistinctNames d.children
  fileNames : Entry.FileNames d.children

/-- Of a disk that is written out, this can be computed. -/
theorem Disk.WellFormed.of_areWellFormed {d : Disk} (h : Entry.areWellFormed d.children = true) :
    d.WellFormed :=
  ⟨(Entry.names_of_areWellFormed h).1, (Entry.names_of_areWellFormed h).2⟩

end ExportAtlas
